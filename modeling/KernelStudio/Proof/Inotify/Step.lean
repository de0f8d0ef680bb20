/-
This file gives the invariant of the table of watched paths and the condition under which a call keeps it.
A call that does not meet the condition leaves an array.
-/

import KernelStudio.Proof.Inotify.Buffer

namespace KernelStudio.Inotify

open Records Transition

variable {state next : State} {notice : Notice} {rest : List Notice} {i : Nat} {wd : Int}

/-- The root path fits into its entry, the path of each created file fits into `path`, and the descriptor
that the test of `wd` lets through is not handed out. -/
def fits : Guard State Event
  | state, .inotifyAddWatch wd =>
      if state.pc = .firstWatch then wd = -1 ∨ state.root.length < bufLen else wd ≠ wdsLen
  | state, .body => ∀ notice ∈ state.pending.head?, notice.Creates → ∀ watch ∈ state.watches,
      watch.wd = notice.wd.toInt → watch.path.length + 1 + notice.name.length < pathLen
  | _, _ => True

instance (state : State) (event : Event) : Decidable (fits state event) :=
  match event with
  | .inotifyAddWatch _ => inferInstanceAs (Decidable (ite _ _ _))
  | .body => inferInstanceAs (Decidable (∀ _ ∈ _, _ → ∀ _ ∈ _, _ → _))
  | .inotifyInit1 _ | .read _ => inferInstanceAs (Decidable True)

/-- An access has left its array. -/
def State.Faulted (state : State) : Prop := ∃ fault, state.pc = .fault fault

/-- The table holds exactly the watches of the kernel. -/
structure Tabled (state : State) : Prop where
  buffer : state.buf.length = bufLen
  range : ∀ watch ∈ state.watches, 0 ≤ watch.wd ∧ watch.wd < wdsLen
  agrees : ∀ watch, watch ∈ state.watches ↔ state.wds watch.wd = some watch

/-- The string `path` is the path of the first pending event. -/
def Built (state : State) : Prop :=
  ∃ notice rest, state.pending = notice :: rest ∧ notice.Creates ∧ ∃ parent ∈ state.watches,
    parent.wd = notice.wd.toInt ∧ state.path = parent.path ++ (slash ++ notice.name) ∧ state.path.length < pathLen

/-- What holds between two calls of a run without a fault. -/
def Kept (state : State) : Prop :=
  match state.pc with
  | .inotifyInit1 | .firstWatch => Tabled state ∧ state.watches = [] ∧ state.pending = []
  | .read => Tabled state ∧ state.pending = []
  | .event i => Tabled state ∧ Reading state i
  | .addWatch i => Tabled state ∧ Reading state i ∧ Built state
  | .returned _ => True
  | .fault _ => False

/-- The condition tells whether a call keeps the table true or ends in a fault. -/
def Decided (state : State) (event : Event) (next : State) : Prop :=
  fits state event ∧ Kept next ∨ ¬ fits state event ∧ next.Faulted

/-- The table is about the buffer, the entries and the watches only. -/
theorem Tabled.same (tabled : Tabled state) (buffer : next.buf = state.buf) (watches : next.watches = state.watches)
    (wds : next.wds = state.wds) : Tabled next :=
  ⟨buffer ▸ tabled.buffer, watches ▸ tabled.range, fun watch => by rw [watches, wds, tabled.agrees]⟩

/-- A descriptor stands for one path. -/
theorem Tabled.unique (tabled : Tabled state) {first second : MapWdPath} (left : first ∈ state.watches)
    (right : second ∈ state.watches) (same : first.wd = second.wd) : first = second := by
  rw [tabled.agrees] at left right
  exact Option.some.inj (left.symm.trans (same ▸ right))

/-- The string of a watch is found in the table. -/
theorem Tabled.pathAt (tabled : Tabled state) {watch : MapWdPath} (known : watch ∈ state.watches) :
    state.pathAt watch.wd = .ok watch.path := by
  rw [State.pathAt, if_pos (tabled.range watch known), (tabled.agrees watch).mp known]

/-- The table stays the kernel's when an entry is written for a new descriptor. -/
theorem Tabled.enter (tabled : Tabled state) {path : List UInt8} (above : ∀ watch ∈ state.watches, watch.wd < wd)
    (inside : 0 ≤ wd ∧ wd < wdsLen) (buffer : next.buf = state.buf)
    (watches : next.watches = ⟨wd, path⟩ :: state.watches)
    (wds : next.wds = Function.update state.wds wd (some ⟨wd, path⟩)) : Tabled next := by
  refine ⟨buffer ▸ tabled.buffer, fun watch known => ?_, fun watch => ?_⟩
  · rw [watches, List.mem_cons] at known
    rcases known with rfl | known
    · exact inside
    · exact tabled.range watch known
  · rw [watches, wds, List.mem_cons]
    by_cases same : watch.wd = wd
    · have fresh : watch ∉ state.watches := fun known => Int.lt_irrefl wd (same ▸ above watch known)
      rw [same, Function.update_self, Option.some_inj]
      exact ⟨fun known => (known.resolve_right fresh).symm, fun new => .inl new.symm⟩
    · have other : watch ≠ ⟨wd, path⟩ := fun new => same (congrArg MapWdPath.wd new)
      rw [Function.update_of_ne same, ← tabled.agrees]
      exact or_iff_right other

/-- The condition on a creation is about the one path that its descriptor stands for. -/
theorem fits_body_iff (tabled : Tabled state) (pending : state.pending = notice :: rest) (creates : notice.Creates)
    {parent : MapWdPath} (known : parent ∈ state.watches) (own : parent.wd = notice.wd.toInt) :
    fits state .body ↔ parent.path.length + 1 + notice.name.length < pathLen := by
  simp only [fits, pending, List.head?_cons, Option.mem_some, forall_eq']
  refine ⟨fun fit => fit creates parent known own, fun fit _ watch listed same => ?_⟩
  exact tabled.unique known listed (own.trans same.symm) ▸ fit

/-- The event of a creation builds the path of the created file. -/
theorem Reading.build (reading : Reading state i) (tabled : Tabled state) (pending : state.pending = notice :: rest)
    (creates : notice.Creates) {parent : MapWdPath} (known : parent ∈ state.watches)
    (own : parent.wd = notice.wd.toInt) : state.build i notice.toInotifyEvent =
      if parent.path.length + 1 + notice.name.length < pathLen
        then .ok { state with path := parent.path ++ (slash ++ notice.name), pc := .addWatch i }
        else .error (.overflow pathLen) := by
  have formed := (reading.formed notice (pending ▸ List.mem_cons_self)).1
  obtain ⟨_, tail, content⟩ := reading.head pending
  have named : notice.len ≠ 0 := by
    rcases formed.2.1 with ⟨none, _⟩ | ⟨_, room⟩
    · exact absurd none (formed.2.2 creates)
    · rintro zero
      simp [zero] at room
  exact build_eq (own ▸ tabled.pathAt known) (nameAt_eq content formed named)

/-- A creation leaves the array `path` exactly when the path of the created file does not fit. -/
theorem kept_build (tabled : Tabled state) (reading : Reading state i) (pending : state.pending = notice :: rest)
    (creates : notice.Creates) (next_eq : next = state.outcome (state.build i notice.toInotifyEvent)) :
    Decided state .body next := by
  obtain ⟨parent, known, own⟩ := (reading.formed notice (pending ▸ List.mem_cons_self)).2 creates
  rw [reading.build tabled pending creates known own] at next_eq
  rw [Decided, fits_body_iff tabled pending creates known own]
  by_cases fit : parent.path.length + 1 + notice.name.length < pathLen
  · rw [if_pos fit] at next_eq
    subst next_eq
    refine .inl ⟨fit, tabled.same rfl rfl rfl, ⟨reading.remaining, reading.formed⟩,
      notice, rest, pending, creates, parent, known, own, rfl, ?_⟩
    simp only [State.outcome, slash, List.length_append, List.length_singleton]
    omega
  · rw [if_neg fit] at next_eq
    exact .inr ⟨fit, .overflow pathLen, by rw [next_eq, State.outcome]⟩

/-- A body of the loop leaves an array exactly when the path of a created file does not fit. -/
theorem kept_body (kept : Kept state) (taken : state.body = some next) :
    Decided state .body next := by
  unfold State.body at taken
  split at taken
  next i position =>
    obtain ⟨tabled, reading⟩ : Tabled state ∧ Reading state i := by
      rw [Kept, position] at kept
      exact kept
    have next_eq := (Option.some.inj taken).symm
    cases pending : state.pending with
    | nil =>
        have past := reading.done pending
        rw [if_neg (by omega)] at next_eq
        subst next_eq
        exact .inl ⟨by simp [fits, pending], tabled.same rfl rfl rfl, pending⟩
    | cons notice rest =>
        rw [if_pos (reading.head pending).1, reading.handle pending] at next_eq
        by_cases creates : notice.Creates
        · rw [if_pos creates] at next_eq
          exact kept_build tabled reading pending creates next_eq
        · rw [if_neg creates] at next_eq
          subst next_eq
          exact .inl ⟨by simp [fits, pending, creates], tabled.same rfl rfl rfl, reading.advance pending⟩
  next => contradiction

/-- An entry inside the table has room for a string that has room in it. -/
theorem store_eq {path : List UInt8} (inside : 0 ≤ wd ∧ wd < wdsLen) (room : path.length < bufLen) :
    state.store wd path = .ok (state.enter wd path) := by
  rw [State.store, if_pos inside, strcpy_ok room, Except.map]

/-- The call that follows the creation of a file enters a descriptor of the table. -/
theorem add_eq (reading : Reading state i) (pending : state.pending = notice :: rest)
    (inside : 0 ≤ wd ∧ wd < wdsLen) (room : state.path.length < bufLen) :
    state.add i wd = .ok ((state.enter wd state.path).advance i notice.toInotifyEvent) := by
  obtain ⟨_, tail, content⟩ := reading.head pending
  rw [State.add, if_neg (by omega), if_neg (by omega), store_eq inside room, ok_bind, eventAt_eq content, ok_bind]
  rfl

theorem step_addWatch (position : state.pc = .addWatch i) : watcher.step state (.inotifyAddWatch wd) =
    some ((state.handOut wd state.path).outcome ((state.handOut wd state.path).add i wd)) := by
  simp only [watcher, State.step, State.inotifyAddWatch, position]

/-- What the call that follows the creation of a file can do. The descriptor 256 passes the test of `wd`. -/
theorem addWatch_cases (tabled : Tabled state) (reading : Reading state i) (built : Built state)
    (position : state.pc = .addWatch i) (admitted : kernel state (.inotifyAddWatch wd))
    (taken : watcher.step state (.inotifyAddWatch wd) = some next) :
    (wd = -1 ∨ wdsLen < wd) ∧ (∃ code, next.pc = .returned code) ∨
      wd = wdsLen ∧ next.pc = .fault (.index wd) ∨
      (0 ≤ wd ∧ wd < wdsLen) ∧ (∀ watch ∈ state.watches, watch.wd < wd) ∧
        ∃ notice, state.pending.head? = some notice ∧
          next = ((state.handOut wd state.path).enter wd state.path).advance i notice.toInotifyEvent := by
  obtain ⟨notice, rest, pending, _, parent, known, own, path_eq, room⟩ := built
  have next_eq := Option.some.inj (taken.symm.trans (step_addWatch position))
  by_cases failed : wd = -1
  · rw [State.add, if_neg (by omega), if_pos failed] at next_eq
    exact .inl ⟨.inl failed, -1, by rw [next_eq, State.outcome]⟩
  · have above : ∀ watch ∈ state.watches, watch.wd < wd := by
      have asked : state.watches ≠ [] := List.ne_nil_of_mem known
      simpa [kernel, failed, asked] using admitted
    have positive : 0 < wd := Int.lt_of_le_of_lt (tabled.range parent known).1 (above parent known)
    obtain below | same | beyond := Int.lt_trichotomy wd wdsLen
    · have inside : 0 ≤ wd ∧ wd < wdsLen := ⟨by omega, below⟩
      have small : pathLen < bufLen := by decide
      have later := reading.handOut state.path failed
      rw [add_eq later (by simpa using pending) inside (by rw [handOut_path]; omega)] at next_eq
      refine .inr (.inr ⟨inside, above, notice, by rw [pending]; rfl, ?_⟩)
      rw [next_eq, State.outcome, handOut_path]
    · rw [State.add, if_neg (by omega), if_neg failed, State.store, if_neg (by omega), error_bind] at next_eq
      exact .inr (.inl ⟨same, by rw [next_eq, State.outcome]⟩)
    · rw [State.add, if_pos beyond] at next_eq
      exact .inl ⟨.inr beyond, 0, by rw [next_eq, State.outcome]⟩

/-- The call that follows the creation of a file leaves the table exactly for the descriptor 256. -/
theorem kept_add (tabled : Tabled state) (reading : Reading state i) (built : Built state)
    (position : state.pc = .addWatch i) (admitted : kernel state (.inotifyAddWatch wd))
    (taken : watcher.step state (.inotifyAddWatch wd) = some next) : Decided state (.inotifyAddWatch wd) next := by
  have fits_iff : fits state (.inotifyAddWatch wd) ↔ wd ≠ wdsLen := by simp [fits, position]
  rw [Decided, fits_iff]
  rcases addWatch_cases tabled reading built position admitted taken with
    ⟨outside, code, exited⟩ | ⟨same, faulted⟩ | ⟨inside, above, notice, first, rfl⟩
  · refine .inl ⟨by omega, ?_⟩
    rw [Kept, exited]
    trivial
  · exact .inr ⟨not_not.mpr same, .index wd, faulted⟩
  · obtain ⟨rest, pending⟩ := List.head?_eq_some_iff.mp first
    have new : wd ≠ -1 := by omega
    have later := reading.handOut state.path new
    have same : ((state.handOut wd state.path).enter wd state.path).pending = notice :: rest := by
      rw [State.enter_pending, handOut_pending, pending]
    refine .inl ⟨by omega, tabled.enter above inside (handOut_buf ..) (handOut_watches new) (by simp), ?_⟩
    exact Reading.advance ⟨later.remaining, later.formed⟩ same

/-- The first call enters the root path or leaves the array of its entry. -/
theorem kept_addFirst (tabled : Tabled state) (unasked : state.watches = []) (idle : state.pending = [])
    (position : state.pc = .firstWatch) (admitted : kernel state (.inotifyAddWatch wd))
    (next_eq : next = (state.handOut wd state.root).outcome ((state.handOut wd state.root).addFirst wd)) :
    Decided state (.inotifyAddWatch wd) next := by
  have fits_iff : fits state (.inotifyAddWatch wd) ↔ wd = -1 ∨ state.root.length < bufLen := by
    simp [fits, position]
  have first : wd = -1 ∨ wd = 1 := by simpa [kernel, unasked] using admitted
  rw [Decided, fits_iff]
  by_cases failed : wd = -1
  · rw [State.addFirst, if_pos failed] at next_eq
    subst next_eq
    exact .inl ⟨.inl failed, trivial⟩
  · have inside : 0 ≤ wd ∧ wd < wdsLen := by
      rw [first.resolve_left failed]
      decide
    rw [State.addFirst, if_neg failed, handOut_root] at next_eq
    by_cases room : state.root.length < bufLen
    · rw [store_eq inside room, Except.map] at next_eq
      subst next_eq
      refine .inl ⟨.inr room, tabled.enter (fun watch known => ?_) inside (handOut_buf ..)
        (handOut_watches failed) ?_, by simpa [State.outcome] using idle⟩
      · rw [unasked] at known
        contradiction
      · simp [State.outcome]
    · rw [State.store, if_pos inside, strcpy_error room, Except.map, Except.map] at next_eq
      exact .inr ⟨not_or.mpr ⟨failed, room⟩, .overflow bufLen, by rw [next_eq, State.outcome]⟩

/-- A read puts its events in front of the loop. -/
theorem kept_fill (tabled : Tabled state) {notices : List Notice}
    (short : (notices.flatMap Notice.encode).length ≤ bufLen) (admitted : kernel state (.read (some notices))) :
    Kept (state.fill notices) := by
  refine ⟨⟨?_, tabled.range, tabled.agrees⟩, .inr ⟨_, rfl, Remaining.start notices _⟩, admitted⟩
  simp only [State.fill, List.length_append, List.length_drop, tabled.buffer]
  omega

/-- Each call of the run keeps the table true, or leaves an array exactly when the condition fails. -/
theorem kept_step (kept : Kept state) {event : Event} (admitted : kernel state event)
    (taken : watcher.step state event = some next) :
    Decided state event next := by
  cases event with
  | inotifyInit1 fd =>
      obtain ⟨position, next_eq⟩ := Option.ite_none_right_eq_some.mp taken
      rw [Kept, position] at kept
      obtain rfl := Option.some.inj next_eq
      refine .inl ⟨trivial, ?_⟩
      unfold Kept
      split_ifs
      · trivial
      · exact ⟨kept.1.same rfl rfl rfl, kept.2⟩
  | inotifyAddWatch wd =>
      have unfolded := taken
      simp only [watcher, State.step, State.inotifyAddWatch] at unfolded
      split at unfolded
      next position =>
        rw [Kept, position] at kept
        exact kept_addFirst kept.1 kept.2.1 kept.2.2 position admitted (Option.some.inj unfolded).symm
      next i position =>
        rw [Kept, position] at kept
        exact kept_add kept.1 kept.2.1 kept.2.2 position admitted taken
      next => contradiction
  | read result =>
      cases result with
      | none =>
          obtain ⟨position, next_eq⟩ := Option.ite_none_right_eq_some.mp taken
          rw [Kept, position] at kept
          obtain rfl := Option.some.inj next_eq
          exact .inl ⟨trivial, kept.1.same rfl rfl rfl, .inl ⟨rfl, by simp⟩, by simp⟩
      | some notices =>
          obtain ⟨⟨position, short⟩, next_eq⟩ := Option.ite_none_right_eq_some.mp taken
          rw [Kept, position] at kept
          obtain rfl := Option.some.inj next_eq
          exact .inl ⟨trivial, kept_fill kept.1 short admitted⟩
  | body => exact kept_body kept taken

end KernelStudio.Inotify
