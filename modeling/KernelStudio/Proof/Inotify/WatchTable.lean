/-
This file proves that the table of watched paths is true, and when each access stays inside its array.
The table agrees with the kernel's watches, and each of them lies below the root path.
-/

import KernelStudio.Proof.Inotify.Step

namespace KernelStudio.Inotify

open Transition

variable {state next : State} {notice : Notice} {i : Nat} {wd : Int}

/-- A run that meets the condition at each step. -/
def fitting : Guard State Event := fun state event => kernel state event ∧ fits state event

instance (state : State) (event : Event) : Decidable (fitting state event) := inferInstanceAs (Decidable (_ ∧ _))

theorem kept_start (initial : watcher.start state) : Kept state := by
  obtain ⟨argv, buf, _, long, rfl⟩ := initial
  exact ⟨⟨long, by simp, by simp⟩, rfl, rfl⟩

theorem Kept.not_faulted (kept : Kept state) : ¬ state.Faulted := by
  rintro ⟨fault, position⟩
  rw [Kept, position] at kept
  exact kept

/-- A fault ends the run. -/
theorem step_faulted (faulted : state.Faulted) (event : Event) : watcher.step state event = none := by
  obtain ⟨fault, position⟩ := faulted
  cases event with
  | inotifyInit1 fd => simp [watcher, State.step, position]
  | inotifyAddWatch wd => simp [watcher, State.step, State.inotifyAddWatch, position]
  | read result => cases result <;> simp [watcher, State.step, position]
  | body => simp [watcher, State.step, State.body, position]

theorem kept_fitting (reached : watcher.Reaches fitting state) : Kept state := by
  refine reached.invariant Kept (fun _ => kept_start) fun before event after _ kept admitted taken => ?_
  rcases kept_step kept admitted.1 taken with ⟨_, still⟩ | ⟨unfit, _⟩
  · exact still
  · exact absurd admitted.2 unfit

/-- A run without a fault meets the condition at each step. -/
theorem fitting_of_not_faulted (reached : watcher.Reaches kernel state) (sound : ¬ state.Faulted) :
    watcher.Reaches fitting state := by
  induction reached with
  | start initial => exact .start initial
  | step event _ admitted taken ih =>
      have before := ih fun faulted => by simp [step_faulted faulted] at taken
      rcases kept_step (kept_fitting before) admitted taken with ⟨fit, _⟩ | ⟨_, faulted⟩
      · exact .step event before ⟨admitted, fit⟩ taken
      · exact absurd faulted sound

theorem kept_reached (reached : watcher.Reaches kernel state) (running : ∀ fault, state.pc ≠ .fault fault) :
    Kept state :=
  kept_fitting (fitting_of_not_faulted reached fun ⟨fault, faulted⟩ => running fault faulted)

/-- Between two reads the table agrees with the kernel, and no event is left. -/
theorem read_reached (reached : watcher.Reaches kernel state) (position : state.pc = .read) :
    Tabled state ∧ state.pending = [] := by
  have kept := kept_reached reached (by simp [position])
  rwa [Kept, position] at kept

/-- While the loop waits for a descriptor, `path` holds the path of the first pending event. -/
theorem addWatch_reached (reached : watcher.Reaches kernel state) (position : state.pc = .addWatch i) :
    Tabled state ∧ Reading state i ∧ Built state := by
  have kept := kept_reached reached (by simp [position])
  rwa [Kept, position] at kept

/-- Whenever the program reads, it has handled all events, and its table holds exactly the kernel's watches. -/
theorem table_agrees (reached : watcher.Reaches kernel state) (position : state.pc = .read) :
    state.pending = [] ∧ ∀ watch, watch ∈ state.watches ↔ state.wds watch.wd = some watch := by
  obtain ⟨tabled, idle⟩ := read_reached reached position
  exact ⟨idle, tabled.agrees⟩

/-- The arguments and the kernel's watches stay as they are. -/
structure Unwatched (state next : State) : Prop where
  argv : next.argv = state.argv
  watches : next.watches = state.watches

theorem unwatched_outcome {result : Except Fault State} (same : ∀ next, result = .ok next → Unwatched state next) :
    Unwatched state (state.outcome result) := by
  cases result with
  | error fault => exact ⟨rfl, rfl⟩
  | ok next => exact same next rfl

theorem unwatched_handle (done : state.handle i = .ok next) : Unwatched state next := by
  obtain ⟨event, _, done⟩ := bind_eq_ok done
  obtain ⟨_, _, done⟩ := bind_eq_ok done
  split at done
  · obtain ⟨parent, _, done⟩ := bind_eq_ok done
    obtain ⟨_, _, done⟩ := bind_eq_ok done
    obtain ⟨_, _, done⟩ := bind_eq_ok done
    obtain ⟨name, _, done⟩ := bind_eq_ok done
    obtain ⟨_, _, done⟩ := bind_eq_ok done
    exact Except.ok.inj done ▸ ⟨rfl, rfl⟩
  · exact Except.ok.inj done ▸ ⟨rfl, rfl⟩

theorem unwatched_store {path : List UInt8} (done : state.store wd path = .ok next) : Unwatched state next := by
  unfold State.store at done
  split at done
  · unfold strcpy at done
    split at done
    · exact Except.ok.inj done ▸ ⟨rfl, rfl⟩
    · contradiction
  · contradiction

theorem unwatched_add (done : state.add i wd = .ok next) : Unwatched state next := by
  unfold State.add at done
  split_ifs at done
  · exact Except.ok.inj done ▸ ⟨rfl, rfl⟩
  · exact Except.ok.inj done ▸ ⟨rfl, rfl⟩
  · obtain ⟨stored, entered, done⟩ := bind_eq_ok done
    obtain ⟨event, _, done⟩ := bind_eq_ok done
    have same := unwatched_store entered
    exact Except.ok.inj done ▸ ⟨same.argv, same.watches⟩

theorem unwatched_addFirst (done : state.addFirst wd = .ok next) : Unwatched state next := by
  unfold State.addFirst at done
  split_ifs at done
  · exact Except.ok.inj done ▸ ⟨rfl, rfl⟩
  · cases entered : state.store wd state.root with
    | error fault =>
        rw [entered] at done
        contradiction
    | ok stored =>
        have same := unwatched_store entered
        rw [entered] at done
        exact Except.ok.inj done ▸ ⟨same.argv, same.watches⟩

theorem mem_handOut {path : List UInt8} {watch : MapWdPath} (known : watch ∈ (state.handOut wd path).watches) :
    watch ∈ state.watches ∨ watch.path = path := by
  unfold State.handOut at known
  split at known
  · exact .inl known
  · rcases List.mem_cons.mp known with rfl | old
    · exact .inr rfl
    · exact .inl old

/-- A call asks for the root path or for the path that the loop has built. -/
theorem step_watches {event : Event} (taken : watcher.step state event = some next) : next.argv = state.argv ∧
    ∀ watch ∈ next.watches, watch ∈ state.watches ∨ watch.path = state.root ∨
      watch.path = state.path ∧ ∃ i, state.pc = .addWatch i := by
  have quiet (same : Unwatched state next) : next.argv = state.argv ∧ ∀ watch ∈ next.watches,
      watch ∈ state.watches ∨ watch.path = state.root ∨ watch.path = state.path ∧ ∃ i, state.pc = .addWatch i :=
    ⟨same.argv, fun watch known => .inl (same.watches ▸ known)⟩
  cases event with
  | inotifyInit1 fd =>
      obtain ⟨_, next_eq⟩ := Option.ite_none_right_eq_some.mp taken
      exact quiet (Option.some.inj next_eq ▸ ⟨rfl, rfl⟩)
  | inotifyAddWatch wd =>
      simp only [watcher, State.step, State.inotifyAddWatch] at taken
      split at taken
      next position =>
        have same : Unwatched (state.handOut wd state.root) next :=
          Option.some.inj taken ▸ unwatched_outcome fun _ => unwatched_addFirst
        refine ⟨same.argv.trans (handOut_argv ..), fun watch known => ?_⟩
        exact (mem_handOut (same.watches ▸ known)).imp_right .inl
      next i position =>
        have same : Unwatched (state.handOut wd state.path) next :=
          Option.some.inj taken ▸ unwatched_outcome fun _ => unwatched_add
        refine ⟨same.argv.trans (handOut_argv ..), fun watch known => ?_⟩
        exact (mem_handOut (same.watches ▸ known)).imp_right fun asked => .inr ⟨asked, i, position⟩
      next => contradiction
  | read result =>
      cases result with
      | none =>
          obtain ⟨_, next_eq⟩ := Option.ite_none_right_eq_some.mp taken
          exact quiet (Option.some.inj next_eq ▸ ⟨rfl, rfl⟩)
      | some notices =>
          obtain ⟨_, next_eq⟩ := Option.ite_none_right_eq_some.mp taken
          exact quiet (Option.some.inj next_eq ▸ ⟨rfl, rfl⟩)
  | body =>
      simp only [watcher, State.step, State.body] at taken
      split at taken
      next i position =>
        refine quiet (Option.some.inj taken ▸ ?_)
        split
        · exact unwatched_outcome fun _ => unwatched_handle
        · exact ⟨rfl, rfl⟩
      next => contradiction

/-- The paths of the root and of the files that are created below it. -/
inductive Below (root : List UInt8) : List UInt8 → Prop where
  | root : Below root root
  | file {path name : List UInt8} : Below root path → name ≠ [] → 0 ∉ name → Below root (path ++ (slash ++ name))

/-- Each watch stands for the root or for a file below it. -/
theorem watches_below (reached : watcher.Reaches kernel state) :
    ∀ watch ∈ state.watches, Below state.root watch.path := by
  refine reached.invariant (fun state => ∀ watch ∈ state.watches, Below state.root watch.path) ?_ ?_
  · rintro _ ⟨argv, buf, _, _, rfl⟩ watch known
    contradiction
  · intro before event after visited below admitted taken watch known
    obtain ⟨argv, asked⟩ := step_watches taken
    have root : after.root = before.root := by rw [State.root, argv, State.root]
    rw [root]
    rcases asked watch known with old | first | ⟨built, i, position⟩
    · exact below watch old
    · exact first ▸ .root
    · obtain ⟨_, reading, notice, rest, pending, creates, parent, listed, _, path_eq, _⟩ :=
        addWatch_reached visited position
      obtain ⟨plain, _, named⟩ := (reading.formed notice (pending ▸ List.mem_cons_self)).1
      rw [built, path_eq]
      exact .file (below parent listed) (named creates) plain

/-- The entry of the new descriptor is the entry of the event's watch, a slash and the name of the event. -/
def State.Entered (state next : State) (wd : Int) : Prop :=
  ∃ notice parent, state.pending = notice :: next.pending ∧ next.wds notice.wd.toInt = some parent ∧
    next.wds wd = some ⟨wd, parent.path ++ (slash ++ notice.name)⟩

/-- A creation that is handled without an exit has its entry. -/
theorem entered (reached : watcher.Reaches kernel state) (position : state.pc = .addWatch i)
    (admitted : kernel state (.inotifyAddWatch wd)) (taken : watcher.step state (.inotifyAddWatch wd) = some next)
    {j : Nat} (continues : next.pc = .event j) : state.Entered next wd := by
  obtain ⟨tabled, reading, built⟩ := addWatch_reached reached position
  obtain ⟨notice, rest, pending, _, parent, known, own, path_eq, _⟩ := id built
  rcases addWatch_cases tabled reading built position admitted taken with
    ⟨_, code, exited⟩ | ⟨_, faulted⟩ | ⟨inside, above, first, same, rfl⟩
  · rw [exited] at continues
    contradiction
  · rw [faulted] at continues
    contradiction
  · have other : notice.wd.toInt ≠ wd := own ▸ Int.ne_of_lt (above parent known)
    refine ⟨notice, parent, ?_, ?_, ?_⟩
    · simp [pending]
    · rw [State.advance_wds, State.enter_wds, handOut_wds, Function.update_of_ne other, ← own]
      exact (tabled.agrees parent).mp known
    · simp [path_eq]

/-- In a run of the kernel the accesses stay inside their arrays exactly as long as the condition holds, and
each creation that is handled without an exit has its entry. -/
theorem watch_table_sound (reached : watcher.Reaches kernel state) :
    (¬ state.Faulted ↔ watcher.Reaches fitting state) ∧
    (∀ event next, kernel state event → watcher.step state event = some next →
      (¬ next.Faulted ↔ fits state event)) ∧
    ∀ i j wd next, state.pc = .addWatch i → kernel state (.inotifyAddWatch wd) →
      watcher.step state (.inotifyAddWatch wd) = some next → next.pc = .event j → state.Entered next wd := by
  refine ⟨⟨fitting_of_not_faulted reached, fun fit => (kept_fitting fit).not_faulted⟩,
    fun event next admitted taken => ?_,
    fun i j wd next position admitted taken continues => entered reached position admitted taken continues⟩
  have sound : ¬ state.Faulted := fun faulted => by simp [step_faulted faulted] at taken
  rcases kept_step (kept_fitting (fitting_of_not_faulted reached sound)) admitted taken with
    ⟨fit, still⟩ | ⟨unfit, faulted⟩
  · exact iff_of_true still.not_faulted fit
  · exact iff_of_false (not_not.mpr faulted) unfit

/-- The bytes of a text. -/
def ascii (text : String) : List UInt8 := text.toList.map fun char => UInt8.ofNat char.toNat

/-- A state at the start of `main` with one argument. -/
def opened (root : List UInt8) : State := { argv := [ascii "inotify", root], buf := List.replicate bufLen 0 }

/-- A file with this name is created in a watched directory. -/
def created (wd : BitVec 32) (name : List UInt8) : Notice := { wd, mask := inCreate, cookie := 0, len := 16, name }

/-- A directory and a file in it are created below the root `r`. -/
def nestedEvents : List Event :=
  [.inotifyInit1 3, .inotifyAddWatch 1, .read (some [created 1 (ascii "d")]), .body, .inotifyAddWatch 2, .body,
    .read (some [created 2 (ascii "f")]), .body]

/-- The file in the new directory has its path. -/
theorem watch_table_sound_nested : ∃ state next : State, watcher.Reaches fitting state ∧ state.Entered next 3 ∧
    next.wds 3 = some ⟨3, ascii "r/d/f"⟩ := by
  have initial : watcher.start (opened (ascii "r")) := ⟨_, _, by decide, List.length_replicate, rfl⟩
  have admitted : watcher.admits kernel (opened (ascii "r")) nestedEvents = true := by decide +kernel
  have executed : ((watcher.execute (opened (ascii "r")) nestedEvents).map fun state =>
      (state.pc, decide (kernel state (.inotifyAddWatch 3)), (watcher.step state (.inotifyAddWatch 3)).map fun next =>
        (next.pc, next.wds 3))) =
      some (.addWatch 0, true, some (.event 32, some ⟨3, ascii "r/d/f"⟩)) := by decide +kernel
  obtain ⟨state, reached, shown⟩ := Machine.admits_shows initial nestedEvents admitted _ executed
  simp only [Prod.mk.injEq, decide_eq_true_eq, Option.map_eq_some_iff] at shown
  obtain ⟨position, allowed, next, taken, continues, entry⟩ := shown
  have sound : ¬ state.Faulted := fun ⟨fault, faulted⟩ => by simp [faulted] at position
  obtain ⟨exact, _, entered⟩ := watch_table_sound reached
  exact ⟨state, next, exact.mp sound, entered 0 32 3 next position allowed taken continues, entry⟩

/-- A creation is reported, and its path is built. -/
theorem announced (reached : watcher.Reaches kernel state) (position : state.pc = .read)
    (formed : notice.WellFormed) (short : notice.encode.length ≤ bufLen) (creates : notice.Creates)
    {parent : MapWdPath} (known : parent ∈ state.watches) (own : parent.wd = notice.wd.toInt)
    (room : parent.path.length + 1 + notice.name.length < pathLen) :
    ∃ built, watcher.execute state [.read (some [notice]), .body] = some built ∧ watcher.Reaches kernel built ∧
      built.pc = .addWatch 0 ∧ built.pending = [notice] ∧ built.watches = state.watches := by
  obtain ⟨tabled, _⟩ := read_reached reached position
  have single : ([notice].flatMap Notice.encode).length ≤ bufLen := by simpa using short
  have allowed : kernel state (.read (some [notice])) := by
    intro other listed
    obtain rfl := List.mem_singleton.mp listed
    exact ⟨formed, fun _ => ⟨parent, known, own⟩⟩
  have filled : watcher.step state (.read (some [notice])) = some (state.fill [notice]) :=
    if_pos ⟨position, single⟩
  have later := Machine.Reaches.step _ reached allowed filled
  obtain ⟨tabled', reading⟩ : Tabled (state.fill [notice]) ∧ Reading (state.fill [notice]) 0 :=
    kept_fill tabled single allowed
  have handled : watcher.step (state.fill [notice]) .body = some { state.fill [notice] with
      path := parent.path ++ (slash ++ notice.name), pc := .addWatch 0 } := by
    change some (ite _ _ _) = _
    rw [if_pos (reading.head rfl).1, reading.handle rfl, if_pos creates, reading.build tabled' rfl creates known own,
      if_pos room]
    rfl
  refine ⟨_, ?_, .step .body later trivial handled, rfl, rfl, rfl⟩
  simp only [Machine.execute, filled, handled, Option.bind_some]

/-- The descriptor of a creation is entered, and the loop ends behind its event. -/
theorem finished (reached : watcher.Reaches kernel state) (position : state.pc = .addWatch i)
    (pending : state.pending = [notice]) (above : ∀ watch ∈ state.watches, watch.wd < wd) (below : wd < wdsLen) :
    ∃ next, watcher.execute state [.inotifyAddWatch wd, .body] = some next ∧ watcher.Reaches kernel next ∧
      next.pc = .read ∧ next.watches = ⟨wd, state.path⟩ :: state.watches := by
  obtain ⟨tabled, reading, built⟩ := addWatch_reached reached position
  obtain ⟨_, _, _, _, parent, known, _⟩ := id built
  have asked : state.watches ≠ [] := List.ne_nil_of_mem known
  have allowed : kernel state (.inotifyAddWatch wd) := .inr (by rwa [if_neg asked])
  have positive : 0 < wd := Int.lt_of_le_of_lt (tabled.range parent known).1 (above parent known)
  obtain ⟨after, taken⟩ : ∃ after, watcher.step state (.inotifyAddWatch wd) = some after :=
    ⟨_, step_addWatch position⟩
  rcases addWatch_cases tabled reading built position allowed taken with
    ⟨outside, _⟩ | ⟨same, _⟩ | ⟨inside, _, first, same, shown⟩
  · omega
  · omega
  · have continues : after.pc = .event (i + (eventSize + first.len.toNat)) := by
      rw [shown]
      rfl
    have emptied : after.pending = [] := by
      rw [shown, State.advance_pending, State.enter_pending, handOut_pending, pending]
      rfl
    have later := Machine.Reaches.step _ reached allowed taken
    have kept := kept_reached later (by simp [continues])
    rw [Kept, continues] at kept
    have ended : watcher.step after .body = some { after with pc := .read } := by
      have past := kept.2.done emptied
      simp only [watcher, State.step, State.body, continues]
      rw [if_neg (by omega)]
    refine ⟨_, ?_, .step .body later trivial ended, rfl, ?_⟩
    · simp only [Machine.execute, taken, ended, Option.bind_some]
    · rw [shown]
      exact handOut_watches (by omega)

/-- Names of two letters, one for each number below 256. -/
def fileName (k : Nat) : List UInt8 := [UInt8.ofNat (65 + k / 16), UInt8.ofNat (65 + k % 16)]

/-- The root `r` is watched, and so many files are created in it, one after another. -/
def fillEvents : Nat → List Event
  | 0 => [.inotifyInit1 3, .inotifyAddWatch 1]
  | count + 1 => fillEvents count ++ ([.read (some [created 1 (fileName count)]), .body] ++
      [.inotifyAddWatch (count + 2 : Nat), .body])

/-- The descriptors up to `count + 1` have been handed out for the root and the files. -/
structure Filled (state : State) (count : Nat) : Prop where
  reached : watcher.Reaches kernel state
  executed : watcher.execute (opened (ascii "r")) (fillEvents count) = some state
  position : state.pc = .read
  root : ⟨1, ascii "r"⟩ ∈ state.watches
  last : ∀ watch ∈ state.watches, watch.wd < (count + 2 : Nat)

/-- The next file is reported, and its path is built. -/
theorem Filled.announced {count : Nat} (filled : Filled state count) (few : count < 256) :
    ∃ built, watcher.execute (opened (ascii "r")) (fillEvents count ++
        [.read (some [created 1 (fileName count)]), .body]) = some built ∧ watcher.Reaches kernel built ∧
      built.pc = .addWatch 0 ∧ built.pending = [created 1 (fileName count)] ∧ built.watches = state.watches := by
  have names : ∀ k < 256, (created 1 (fileName k)).WellFormed := by decide +kernel
  have formed := names count few
  have short : (created 1 (fileName count)).encode.length ≤ bufLen := by
    rw [length_encode formed]
    exact (by decide : eventSize + (16 : BitVec 32).toNat ≤ bufLen)
  obtain ⟨built, executed, shown⟩ := Inotify.announced filled.reached filled.position formed short
    (by decide : inCreate &&& inCreate ≠ 0) filled.root rfl (by decide : (ascii "r").length + 1 + 2 < pathLen)
  exact ⟨built, by rw [Machine.execute_append _ _ filled.executed, executed], shown⟩

theorem filled_start : ∃ state, Filled state 0 := by
  have initial : watcher.start (opened (ascii "r")) := ⟨_, _, by decide, List.length_replicate, rfl⟩
  have admitted : watcher.admits kernel (opened (ascii "r")) (fillEvents 0) = true := by decide +kernel
  have executed : ((watcher.execute (opened (ascii "r")) (fillEvents 0)).map fun state =>
      (state.pc, state.watches)) = some (.read, [⟨1, ascii "r"⟩]) := by decide +kernel
  obtain ⟨state, final, shown⟩ := Option.map_eq_some_iff.mp executed
  simp only [Prod.mk.injEq] at shown
  refine ⟨state, Machine.execute_reaches _ (.start initial) admitted final, final, shown.1, ?_, ?_⟩
  · simp [shown.2]
  · simp [shown.2]

/-- The next file is entered. -/
theorem Filled.enter {count : Nat} (filled : Filled state count) (few : count < 254) :
    ∃ next, Filled next (count + 1) := by
  obtain ⟨built, executed, reached, position, pending, watches⟩ := filled.announced (by omega)
  obtain ⟨next, entered, later, ends, more⟩ := finished reached position pending (watches ▸ filled.last)
    (by simp only [wdsLen]; omega)
  refine ⟨next, later, ?_, ends, ?_, fun watch known => ?_⟩
  · rw [fillEvents, ← List.append_assoc, Machine.execute_append _ _ executed, entered]
  · rw [more, watches]
    exact List.mem_cons_of_mem _ filled.root
  · rw [more, watches, List.mem_cons] at known
    rcases known with rfl | known
    · simp only
      omega
    · have old := filled.last watch known
      omega

theorem filled (count : Nat) (few : count ≤ 254) : ∃ state, Filled state count := by
  induction count with
  | zero => exact filled_start
  | succ count ih =>
      obtain ⟨state, filled⟩ := ih (by omega)
      exact filled.enter (by omega)

/-- A file is created below a root path of 255 bytes. -/
def longEvents : List Event :=
  [.inotifyInit1 3, .inotifyAddWatch 1, .read (some [created 1 (ascii "f")]), .body]

/-- The 255th file gets the descriptor 256. -/
def crowdedEvents : List Event :=
  fillEvents 254 ++ [.read (some [created 1 (fileName 254)]), .body] ++ [.inotifyAddWatch 256]

/-- The path of one file leaves the array `path`, and the entry of the 255th file lies behind the table. -/
theorem watch_table_overflows :
    (∃ state, watcher.execute (opened (List.replicate 255 97)) longEvents = some state ∧
      watcher.Reaches kernel state ∧ state.pc = .fault (.overflow pathLen)) ∧
    (∃ state, watcher.execute (opened (ascii "r")) crowdedEvents = some state ∧
      watcher.Reaches kernel state ∧ state.pc = .fault (.index wdsLen)) := by
  constructor
  · have initial : watcher.start (opened (List.replicate 255 97)) := ⟨_, _, by decide, List.length_replicate, rfl⟩
    have admitted : watcher.admits kernel (opened (List.replicate 255 97)) longEvents = true := by decide +kernel
    have executed : ((watcher.execute (opened (List.replicate 255 97)) longEvents).map fun state => state.pc) =
        some (.fault (.overflow pathLen)) := by decide +kernel
    obtain ⟨state, final, shown⟩ := Option.map_eq_some_iff.mp executed
    exact ⟨state, final, Machine.execute_reaches _ (.start initial) admitted final, shown⟩
  · obtain ⟨full, filled⟩ := filled 254 (Nat.le_refl _)
    obtain ⟨built, executed, reached, position, pending, watches⟩ := filled.announced (by decide)
    obtain ⟨tabled, reading, joined⟩ := addWatch_reached reached position
    have above : ∀ watch ∈ built.watches, watch.wd < 256 := watches ▸ filled.last
    have asked : built.watches ≠ [] := watches ▸ List.ne_nil_of_mem filled.root
    have allowed : kernel built (.inotifyAddWatch 256) := .inr (by rwa [if_neg asked])
    obtain ⟨last, taken⟩ : ∃ last, watcher.step built (.inotifyAddWatch 256) = some last :=
      ⟨_, step_addWatch position⟩
    refine ⟨last, ?_, .step _ reached allowed taken, ?_⟩
    · rw [crowdedEvents, Machine.execute_append _ _ executed, Machine.execute, taken]
      rfl
    · rcases addWatch_cases tabled reading joined position allowed taken with
        ⟨outside, _⟩ | ⟨_, faulted⟩ | ⟨inside, _⟩
      · exact absurd outside (by decide)
      · exact faulted
      · exact absurd inside (by decide)

end KernelStudio.Inotify
