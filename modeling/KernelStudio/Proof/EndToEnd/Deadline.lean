/-
This file compares each reported deadline miss with the release of the job's own chain.
The journal of a subtask relates its releases, time stamps and reports to the first subtask's releases.
-/

import KernelStudio.Proof.EndToEnd.Precedence

namespace KernelStudio.EndToEnd

open Transition

/-- The current job has been released and not reported yet. -/
def Pc.inJob : Pc → Nat
  | .subtaskFunc | .ts | .ddl | .missedDdl => 1
  | _ => 0

/-- The current job has its time stamp and has not been reported yet. -/
def Pc.stamped : Pc → Nat
  | .ddl | .missedDdl => 1
  | _ => 0

theorem Pc.inJob_of_early {pc : Pc} (early : pc.early = true) : pc.inJob = 0 ∧ pc.stamped = 0 := by
  cases pc with
  | schedule taskState => exact ⟨rfl, rfl⟩
  | _ => first | exact ⟨rfl, rfl⟩ | contradiction

/-- This relation says when the n-th job of a subtask has reported a miss that its own chain suffered. -/
def Sub.Honest (cur : Sub) (first : List Nat) (relative n : Nat) : Prop :=
  ∃ stamp released, cur.stamps[n]? = some stamp ∧ first[n]? = some released ∧
    (released + relative < stamp → cur.reports[n]? = some true)

/-- The journal of a subtask against the releases of its task's first subtask. -/
structure Sub.Journal (cur : Sub) (first : List Nat) (relative : Nat) : Prop where
  releases : cur.releases.length = cur.reports.length + cur.pc.inJob
  stamps : cur.stamps.length = cur.reports.length + cur.pc.stamped
  ts : cur.pc.stamped = 1 → cur.stamps[cur.reports.length]? = some cur.ts
  ddl : cur.pc = .missedDdl → ∃ released, first[cur.reports.length]? = some released ∧
    cur.ddl = relative + released
  reported : ∀ n < cur.reports.length, cur.Honest first relative n

namespace Sub

variable {cur next : Sub} {first longer : List Nat} {relative : Nat}

theorem Quiet.journal (quiet : cur.Quiet) : cur.Journal first relative := by
  obtain ⟨inJob, stamped⟩ := Pc.inJob_of_early quiet.early
  exact
    { releases := by rw [quiet.releases, quiet.reports, inJob]; rfl
      stamps := by rw [quiet.stamps, quiet.reports, stamped]; rfl
      ts := fun fresh => by omega
      ddl := fun position => by simp [position, Pc.stamped] at stamped
      reported := fun n inside => by simp [quiet.reports] at inside }

/-- An entry of a list keeps its place in a longer list. -/
theorem getElem?_of_prefix {α : Type} {short long : List α} {n : Nat} {entry : α} (grows : short <+: long)
    (found : short[n]? = some entry) : long[n]? = some entry := by
  obtain ⟨inside, rfl⟩ := List.getElem?_eq_some_iff.mp found
  exact List.prefix_iff_getElem?.mp grows n inside

/-- Further releases of the first subtask leave the journal valid. -/
theorem Journal.extend (journal : cur.Journal first relative) (grows : first <+: longer) :
    cur.Journal longer relative where
  releases := journal.releases
  stamps := journal.stamps
  ts := journal.ts
  ddl position := by
    obtain ⟨released, found, value⟩ := journal.ddl position
    exact ⟨released, getElem?_of_prefix grows found, value⟩
  reported n inside := by
    obtain ⟨stamp, released, stamped, found, honest⟩ := journal.reported n inside
    exact ⟨stamp, released, stamped, getElem?_of_prefix grows found, honest⟩

/-- A record that differs by a wake-up only has the same journal. -/
theorem Journal.transfer (journal : cur.Journal first relative) (same : next.SameWork cur)
    (moved : next.pc = cur.pc ∨ next.pc = cur.pc.wake) : next.Journal first relative := by
  have inJob : next.pc.inJob = cur.pc.inJob := by
    rcases moved with moved | moved <;> rw [moved]
    cases cur.pc <;> rfl
  have stamped : next.pc.stamped = cur.pc.stamped := by
    rcases moved with moved | moved <;> rw [moved]
    cases cur.pc <;> rfl
  have missed : next.pc = .missedDdl → cur.pc = .missedDdl := by
    rcases moved with moved | moved <;> rw [moved]
    · exact id
    · cases cur.pc <;> simp [Pc.wake]
  exact
    { releases := by rw [same.releases, same.reports, inJob]; exact journal.releases
      stamps := by rw [same.stamps, same.reports, stamped]; exact journal.stamps
      ts := by rw [same.stamps, same.reports, same.ts, stamped]; exact journal.ts
      ddl := fun position => by rw [same.reports, same.ddl]; exact journal.ddl (missed position)
      reported := by
        rw [same.reports]
        intro n inside
        rw [Honest, same.stamps, same.reports]
        exact journal.reported n inside }

/-- A move between positions without a fresh time stamp keeps the journal. -/
theorem Journal.move (journal : cur.Journal first relative) (releases : next.releases = cur.releases)
    (stamps : next.stamps = cur.stamps) (reports : next.reports = cur.reports)
    (inJob : next.pc.inJob = cur.pc.inJob) (stamped : cur.pc.stamped = 0) (unstamped : next.pc.stamped = 0) :
    next.Journal first relative where
  releases := by rw [releases, reports, inJob]; exact journal.releases
  stamps := by rw [stamps, reports, unstamped, ← stamped]; exact journal.stamps
  ts fresh := by omega
  ddl position := by simp [position, Pc.stamped] at unstamped
  reported := by
    rw [reports]
    intro n inside
    rw [Honest, stamps, reports]
    exact journal.reported n inside

end Sub

variable {header : Header} {state next : State}

/-- A statement that neither stamps nor tests a deadline keeps the journal. -/
theorem Statement.journal {i : Nat} {cur : Sub} {signal : Signal}
    (statement : Statement header state i cur signal) {first : List Nat}
    (journal : (state.sub i).Journal first (header.relativeDdl i))
    (stays : (state.sub i).shouldStop = false)
    (current : (state.sub i).pc = .ddl → first[(state.sub i).reports.length]? =
      some (state.sub (header.firstIdx i)).lastReleaseTime) :
    cur.Journal first (header.relativeDdl i) := by
  have releases := journal.releases
  have stamps := journal.stamps
  cases statement
  case exit stopped => simp [stays] at stopped
  case lastReleaseTime position =>
    rw [position] at releases stamps
    exact { journal with
      releases := by simpa [Pc.inJob] using releases
      stamps := stamps
      ts := fun stamped => absurd stamped Nat.zero_ne_one
      ddl := fun position => by simp at position }
  case ts position =>
    rw [position] at releases stamps
    refine { journal with
      releases := releases
      stamps := by simpa [Pc.stamped] using stamps
      ts := fun _ => by
        rw [← show (state.sub i).stamps.length = (state.sub i).reports.length from stamps]
        exact List.getElem?_concat_length
      ddl := fun position => by simp at position
      reported := fun n inside => ?_ }
    obtain ⟨stamp, released, stamped, found, honest⟩ := journal.reported n inside
    exact ⟨stamp, released, Sub.getElem?_of_prefix (List.prefix_append _ _) stamped, found, honest⟩
  case ddl position =>
    rw [position] at releases stamps
    exact { journal with
      releases := releases
      stamps := stamps
      ts := fun _ => journal.ts (by rw [position]; rfl)
      ddl := fun _ => ⟨_, current position, rfl⟩ }
  case missedDdl position =>
    rw [position] at releases stamps
    obtain ⟨released, found, value⟩ := journal.ddl position
    have stamped := journal.ts (by rw [position]; rfl)
    refine
      { releases := by simpa [Pc.inJob] using releases
        stamps := by simpa [Pc.stamped] using stamps
        ts := fun stamped => absurd stamped Nat.zero_ne_one
        ddl := fun position => by simp at position
        reported := fun n inside => ?_ }
    simp only [List.length_append, List.length_singleton] at inside
    by_cases last : n = (state.sub i).reports.length
    · subst last
      refine ⟨_, released, stamped, found, fun late => ?_⟩
      have missed : (state.sub i).ddl < (state.sub i).ts := by omega
      simp [missed]
    · obtain ⟨stamp, released, stamped, found, honest⟩ := journal.reported n (by omega)
      exact ⟨stamp, released, stamped, found, fun late =>
        Sub.getElem?_of_prefix (List.prefix_append _ _) (honest late)⟩
  case rearmFirst more | rearmLater more =>
    rcases more with ⟨_, rfl⟩ | ⟨_, rfl⟩
    all_goals exact journal.move rfl rfl rfl (by simp_all [Pc.inJob]) (by simp_all [Pc.stamped]) rfl
  all_goals exact journal.move rfl rfl rfl (by simp_all [Pc.inJob]) (by simp_all [Pc.stamped]) rfl

/-- The last recorded release is the last release time. -/
theorem recorded_reached {guard : Guard State Event} (reached : header.runMode.Reaches guard state)
    (before : state.exit = .notStarted) (i : Nat) :
    ∀ last ∈ (state.sub i).releases.getLast?, last = (state.sub i).lastReleaseTime := by
  refine runMode_invariant (fun current =>
    ∀ last ∈ (current.sub i).releases.getLast?, last = (current.sub i).lastReleaseTime) ?_ ?_ reached before
  · intro now last known
    simp [(loaded_quiet now i).releases] at known
  · intro current event following visited early recorded _ _ taken
    by_cases loading : event = .init
    · subst loading
      have quiet := (step_init_quiet (startup_reached visited early) taken).2.2 i
      simp [quiet.releases]
    · rcases step_sub loading taken i with ⟨same, _⟩ | ⟨cur, signal, _, statement, same, _⟩
      all_goals rw [same.releases, same.lastReleaseTime]
      · exact recorded
      · cases statement
        case lastReleaseTime => simp
        all_goals exact recorded

/-- A subtask tests its deadline while the first subtask still has the release of the same chain. -/
def Header.deadlinesCurrent (header : Header) (state : State) (event : Event) : Prop :=
  ∀ i < header.subtaskTot, event = .thread i → (state.sub i).pc = .ddl →
    (state.sub (header.firstIdx i)).releases.length = (state.sub i).releases.length

instance (header : Header) (state : State) (event : Event) : Decidable (header.deadlinesCurrent state event) :=
  inferInstanceAs (Decidable (∀ i < header.subtaskTot, _ → _ → _))

/-- The journal of each subtask stays valid while each deadline test sees its own chain. -/
theorem journal_reached (reached : header.runMode.Reaches header.deadlinesCurrent state)
    (before : state.exit = .notStarted) (i : Nat) :
    (state.sub i).Journal (state.sub (header.firstIdx i)).releases (header.relativeDdl i) := by
  refine runMode_invariant (fun current => (current.sub i).Journal
    (current.sub (header.firstIdx i)).releases (header.relativeDdl i)) ?_ ?_ reached before
  · exact fun now => (loaded_quiet now i).journal
  · intro current event following visited early journal admitted _ taken
    have startup := startup_reached visited early
    by_cases loading : event = .init
    · subst loading
      exact ((step_init_quiet startup taken).2.2 i).journal
    · have grows : (current.sub (header.firstIdx i)).releases <+: (following.sub (header.firstIdx i)).releases := by
        rcases step_releases taken with same | ⟨_, _, released⟩
        · exact same ▸ List.prefix_rfl
        · exact released ▸ List.prefix_append _ _
      refine Sub.Journal.extend ?_ grows
      rcases step_sub loading taken i with ⟨same, moved⟩ | ⟨cur, signal, rfl, statement, same, moved⟩
      · exact journal.transfer same moved
      · refine (statement.journal journal (startup.alive i).1 fun position => ?_).transfer same (.inl moved)
        have inside := startup.inside statement.started.1
        have chain := admitted i inside rfl position
        have length := journal.releases
        rw [position, show Pc.ddl.inJob = 1 from rfl] at length
        have last := recorded_reached visited early (header.firstIdx i)
        rw [List.getLast?_eq_getElem?, chain, length, Nat.add_sub_cancel] at last
        have found := List.getElem?_eq_getElem (show (current.sub i).reports.length <
          (current.sub (header.firstIdx i)).releases.length by omega)
        rw [found, ← last _ found]

/-- While each deadline test sees the release of its own chain, each job that ends after its
deadline reports a miss. -/
theorem misses_reported (table : Table) {i : Nat}
    (fits : (table.parent i).period * (table.subtask i).cumulativeExeTime < 2 ^ 32) {state : State}
    (reached : table.runMode.Reaches table.deadlinesCurrent state) (before : state.exit = .notStarted) :
    ∀ n < (state.sub i).reports.length, ∃ stamp released, (state.sub i).stamps[n]? = some stamp ∧
      (state.sub (table.firstIdx i)).releases[n]? = some released ∧
      (released + msToKtime ((table.parent i).period * (table.subtask i).cumulativeExeTime /
        (table.parent i).exeTime) < stamp → (state.sub i).reports[n]? = some true) := by
  have honest := (journal_reached reached before i).reported
  rw [Header.relativeDdl, u32_of_lt fits] at honest
  exact honest

/-- The first job of the successor ends a millisecond after its deadline. -/
def lateJobEvents : List Event :=
  pairEvents ++ [.tick 3000000] ++ List.replicate 4 (.thread 1)

/-- The late job of the pair reports its miss. -/
theorem misses_reported_pair :
    ∃ state : State, (state.sub 1).reports = [true] ∧ ∀ n < (state.sub 1).reports.length,
      ∃ stamp released, (state.sub 1).stamps[n]? = some stamp ∧
        (state.sub (pairTable.firstIdx 1)).releases[n]? = some released ∧
        (released + msToKtime ((pairTable.parent 1).period * (pairTable.subtask 1).cumulativeExeTime /
          (pairTable.parent 1).exeTime) < stamp → (state.sub 1).reports[n]? = some true) := by
  have initial : pairTable.runMode.start (.loaded 0) := ⟨0, rfl⟩
  have admitted : pairTable.runMode.admits pairTable.deadlinesCurrent (.loaded 0) lateJobEvents = true := by
    decide +kernel
  have executed : ((pairTable.runMode.execute (.loaded 0) lateJobEvents).map fun state =>
      ((state.sub 1).reports, state.exit)) = some ([true], .notStarted) := by decide +kernel
  obtain ⟨state, reached, shown⟩ := Machine.admits_shows initial lateJobEvents admitted _ executed
  simp only [Prod.mk.injEq] at shown
  exact ⟨state, shown.1, misses_reported pairTable (by decide) reached shown.2⟩

/-- The kernel absorbs no call, so no release is lost. -/
def Header.lossless (header : Header) (state : State) (event : Event) : Prop :=
  state.absorbs (header.call state event) = false

instance (header : Header) (state : State) (event : Event) : Decidable (header.lossless state event) :=
  inferInstanceAs (Decidable (_ = _))

/-- The first subtask is released again before the late job of its successor ends. -/
def nextChainEvents : List Event :=
  pairEvents ++ [.tick 2000000, .fire 0] ++ List.replicate 2 (.thread 0) ++ [.tick 1000000] ++
    List.replicate 4 (.thread 1)

/-- No release is lost, and yet a job that ends a millisecond after its deadline reports no miss. -/
theorem miss_unreported :
    ∃ state released stamp, pairTable.runMode.Reaches pairTable.lossless state ∧ state.exit = .notStarted ∧
      (pairTable.parent 1).period * (pairTable.subtask 1).cumulativeExeTime < 2 ^ 32 ∧
      (state.sub (pairTable.firstIdx 1)).releases[0]? = some released ∧
      (state.sub 1).stamps[0]? = some stamp ∧
      released + msToKtime ((pairTable.parent 1).period * (pairTable.subtask 1).cumulativeExeTime /
        (pairTable.parent 1).exeTime) < stamp ∧
      (state.sub 1).reports[0]? = some false := by
  have initial : pairTable.runMode.start (.loaded 0) := ⟨0, rfl⟩
  have admitted : pairTable.runMode.admits pairTable.lossless (.loaded 0) nextChainEvents = true := by
    decide +kernel
  have executed : ((pairTable.runMode.execute (.loaded 0) nextChainEvents).map fun state =>
      (state.exit, (state.sub 0).releases, (state.sub 1).stamps, (state.sub 1).reports)) =
      some (.notStarted, [100000000, 102000000], [103000000], [false]) := by decide +kernel
  obtain ⟨state, reached, shown⟩ := Machine.admits_shows initial nextChainEvents admitted _ executed
  simp only [Prod.mk.injEq] at shown
  obtain ⟨before, releases, stamps, reports⟩ := shown
  refine ⟨state, 100000000, 103000000, reached, before, by decide, ?_, ?_, by decide, ?_⟩
  · change (state.sub 0).releases[0]? = _
    rw [releases]
    rfl
  · rw [stamps]
    rfl
  · rw [reports]
    rfl

end KernelStudio.EndToEnd
