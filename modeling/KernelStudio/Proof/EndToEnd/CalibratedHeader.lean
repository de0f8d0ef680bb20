/-
This file follows a calibration from the table of the module to the header that `gen.py` writes of it.
The lines of the unload hold the planned table with the loop counts of all searches, and the header reads back as it.
-/

import KernelStudio.Proof.EndToEnd.CalibrateTeardown
import KernelStudio.Proof.EndToEnd.DeadlineOrder
import KernelStudio.Proof.EndToEnd.HeaderLog
import KernelStudio.Proof.EndToEnd.LoopDuration
import KernelStudio.Proof.EndToEnd.StaleFields

namespace KernelStudio.EndToEnd

open Transition

theorem storedCount_le (exeTime : Nat) (duration : Nat → Int) : storedCount exeTime duration ≤ 100000000 := by
  obtain ⟨⟨durations, _, same⟩, _⟩ := timedSearch_durations (targetNs exeTime) duration 27
  rw [storedCount, same]
  exact (loopSearch_exact (targetNs exeTime) durations).bounded

namespace Header

variable {header : Header} {loopCount : Nat → Nat}

theorem withLoopCounts_subtaskTot (loopCount : Nat → Nat) (header : Header) :
    (header.withLoopCounts loopCount).subtaskTot = header.subtaskTot := List.length_mapIdx

theorem withLoopCounts_subtask {i : Nat} (inside : i < header.subtaskTot) :
    (header.withLoopCounts loopCount).subtask i = { header.subtask i with loopCount := loopCount i } := by
  have own : i < (header.withLoopCounts loopCount).subtaskTot := inside.trans_eq (withLoopCounts_subtaskTot _ _).symm
  rw [subtask, subtask, List.getD_eq_getElem _ _ own, List.getD_eq_getElem _ _ inside]
  exact List.getElem_mapIdx

/-- A table with other loop counts is a table. -/
theorem withLoopCounts_wellFormed (wf : header.WellFormed) (words : ∀ i, loopCount i < 2 ^ 32) :
    (header.withLoopCounts loopCount).WellFormed where
  starts := wf.starts
  total := (withLoopCounts_subtaskTot loopCount header).trans wf.total
  ids k known j inside := by
    obtain ⟨task, place, _⟩ := (withLoopCounts_agrees loopCount header).subtask
      ((header.task k).subtaskStartIdx + j)
    obtain ⟨sameTask, samePlace⟩ := wf.ids k known j inside
    exact ⟨task.trans sameTask, place.trans samePlace⟩
  counts := wf.counts
  periods := wf.periods
  exeTimes subtask listed := by
    obtain ⟨i, inside, rfl⟩ := List.mem_mapIdx.mp listed
    exact wf.exeTimes header.subtasks[i] (List.getElem_mem inside)
  taskWords := wf.taskWords
  subtaskWords subtask listed := by
    obtain ⟨i, inside, rfl⟩ := List.mem_mapIdx.mp listed
    obtain ⟨task, place, time, _, rest⟩ := wf.subtaskWords _ (List.getElem_mem inside)
    exact ⟨task, place, time, words i, rest⟩

end Header

/-- The table that a calibration leaves, with the loop count of the search of each subtask. -/
def calibratedTable (sort : KernelSort) (table : SizedTable) (duration : Nat → Nat → Int) : SizedTable where
  toHeader := (table.plan sort).header.withLoopCounts fun i =>
    storedCount ((table.plan sort).header.subtask i).exeTime (duration i)
  wellFormed := Header.withLoopCounts_wellFormed (Header.plan_wellFormed sort table.wellFormed) fun _ =>
    (storedCount_le _ _).trans_lt (by decide)
  sized := (Header.withLoopCounts_subtaskTot _ _).trans_lt
    ((Header.plan_subtaskTot sort table.toHeader).trans_lt table.sized)

/-- A calibrated table is planned like the table that was calibrated. -/
theorem calibratedTable_same (sort : KernelSort) (table : SizedTable) (duration : Nat → Nat → Int) :
    ((calibratedTable sort table duration).plan sort).Same (table.plan sort) := by
  have agrees : (calibratedTable sort table duration).Agrees table.toHeader := by
    refine (Header.withLoopCounts_agrees _ _).trans ?_
    rw [← Header.planBy_rearrangement]
    exact Header.planBy_agrees sort.rearrangement table.toHeader
  rw [← Header.planBy_rearrangement, ← Header.planBy_rearrangement]
  exact Header.planBy_same sort.rearrangement (calibratedTable sort table duration).wellFormed table.wellFormed
    (calibratedTable sort table duration).sized table.sized agrees

/-- The loop count of a calibrated subtask is the least one that lasts as long as requested. -/
theorem calibratedTable_least (sort : KernelSort) (table : SizedTable) {duration : Nat → Nat → Int} {i : Nat}
    (inside : i < table.subtaskTot) (monotone : Monotone (duration i))
    (attainable : Attainable (table.subtask i).exeTime (duration i))
    (fits : (table.subtask i).exeTime * 1000000 < 2 ^ 32) :
    IsLeast {count | ((table.subtask i).exeTime : Int) * 1000000 ≤ duration i count}
      ((calibratedTable sort table duration).subtask i).loopCount := by
  obtain ⟨count, below, takes⟩ := attainable
  have planned : i < (table.plan sort).header.subtaskTot :=
    inside.trans_eq (Header.plan_subtaskTot sort table.toHeader).symm
  have stored : ((calibratedTable sort table duration).subtask i).loopCount =
      storedCount (table.subtask i).exeTime (duration i) := by
    rw [calibratedTable, Header.withLoopCounts_subtask planned, (Header.plan_subtask sort inside).2.2.1]
  have least := storedCount_least monotone below ((targetNs_le _).trans takes)
  rw [targetNs_exact fits] at least
  rw [stored]
  exact least

namespace CalibrateMode

/-- The message of a line of the unload. -/
def FinLine.message : FinLine → Message
  | .task _ printed => .taskFin printed
  | .subtask _ printed => .subtaskFin printed

/-- The run ends its searches before the unload prints them, and measures the durations of a machine. -/
def Calibrating (plan : Plan) (duration : Nat → Nat → Int) : Guard State Event := fun state event =>
  unloadAfter plan state event ∧ HonestClock plan duration state event

section Lines

variable (plan : Plan) (stored : Nat → Nat)

/-- The lines of the first tasks. -/
def taskLines (count : Nat) : List FinLine := (List.range count).map fun k => .task k (plan.header.task k)

/-- The lines of the first subtasks. -/
def subtaskLines (count : Nat) : List FinLine :=
  (List.range count).map fun i => .subtask i { plan.header.subtask i with loopCount := stored i }

/-- The lines that the unload has printed at a position. -/
def ExitPc.lines : ExitPc → List FinLine
  | .notStarted => []
  | .tasks k => taskLines plan k
  | .subtasks i => taskLines plan plan.header.taskTot ++ subtaskLines plan stored i
  | .kfreeSentinel | .kfreeSubPtr | .cancelCal | .returned =>
      taskLines plan plan.header.taskTot ++ subtaskLines plan stored plan.header.subtaskTot

/-- The loops of the unload stay inside their arrays. -/
def ExitPc.Inside : ExitPc → Prop
  | .tasks k => k ≤ plan.header.taskTot
  | .subtasks i => i ≤ plan.header.subtaskTot
  | _ => True

end Lines

variable {plan : Plan} {duration : Nat → Nat → Int} {state next : State} {stored : Nat → Nat}

theorem taskLines_succ (plan : Plan) (k : Nat) :
    taskLines plan (k + 1) = taskLines plan k ++ [.task k (plan.header.task k)] := by
  simp [taskLines, List.range_succ]

theorem subtaskLines_succ (plan : Plan) (stored : Nat → Nat) (i : Nat) : subtaskLines plan stored (i + 1) =
    subtaskLines plan stored i ++ [.subtask i { plan.header.subtask i with loopCount := stored i }] := by
  simp [subtaskLines, List.range_succ]

/-- The unload has printed what its position says. -/
structure Listed (plan : Plan) (stored : Nat → Nat) (state : State) : Prop where
  inside : state.exit.Inside plan
  lines : state.lines = state.exit.lines plan stored

/-- Only the unload prints its lines. -/
theorem step_unlisted {event : Event} (taken : step plan state event = some next) (other : event ≠ .exit) :
    next.exit = state.exit ∧ next.lines = state.lines := by
  cases event with
  | exit => exact absurd rfl other
  | init =>
      rcases step_init taken with ⟨_, _, _, rfl⟩ | ⟨_, _, _, rfl⟩ | ⟨_, _, rfl⟩ | ⟨_, rfl⟩
      all_goals exact ⟨rfl, rfl⟩
  | cal =>
      rcases step_cal taken with ⟨_, _, rfl⟩ | ⟨_, _, _, rfl⟩ | ⟨_, _, _, rfl⟩
      all_goals exact ⟨rfl, rfl⟩
  | thread c =>
      obtain ⟨later, write, _, rfl⟩ := step_thread taken
      obtain ⟨_, exit, _, lines⟩ := write_frame (state.set c later) (plan.subtaskAt (state.thread c).cur) write
      exact ⟨exit, lines⟩
  | tick duration =>
      obtain rfl := Option.some.inj taken
      exact ⟨rfl, rfl⟩

/-- The unload goes on in its loops, and each line of a subtask shows the count of its search. -/
theorem Listed.exit (listed : Listed plan stored state) (taken : step plan state .exit = some next)
    (counted : ∀ i, state.exit = .subtasks i → i < plan.header.subtaskTot → state.loopCount i = stored i) :
    Listed plan stored next := by
  obtain ⟨inside, lines⟩ := listed
  simp only [step, exitStep] at taken
  cases position : state.exit with
  | notStarted =>
      simp only [position] at taken lines
      split at taken
      · obtain rfl := Option.some.inj taken
        exact ⟨Nat.zero_le _, lines⟩
      · contradiction
  | tasks k =>
      simp only [position, Option.some.injEq] at taken inside lines
      split at taken <;> subst taken
      next more => exact ⟨more, by rw [lines, ExitPc.lines, ExitPc.lines, taskLines_succ]⟩
      next all =>
        obtain rfl : k = plan.header.taskTot := le_antisymm inside (Nat.le_of_not_lt all)
        exact ⟨Nat.zero_le _, by rw [lines]; simp [ExitPc.lines, subtaskLines]⟩
  | subtasks i =>
      simp only [position, Option.some.injEq] at taken inside lines
      split at taken <;> subst taken
      next more =>
        have shown : state.subtask plan i = { plan.header.subtask i with loopCount := stored i } := by
          rw [State.subtask, counted i position more]
        exact ⟨more, by rw [lines, ExitPc.lines, ExitPc.lines, subtaskLines_succ, shown, List.append_assoc]⟩
      next all =>
        obtain rfl : i = plan.header.subtaskTot := le_antisymm inside (Nat.le_of_not_lt all)
        exact ⟨trivial, lines⟩
  | kfreeSentinel | kfreeSubPtr =>
      simp only [position, Option.some.injEq] at taken lines
      subst taken
      exact ⟨trivial, lines⟩
  | cancelCal =>
      simp only [position] at taken lines
      split at taken
      · contradiction
      · obtain rfl := Option.some.inj taken
        exact ⟨trivial, lines⟩
  | returned =>
      simp only [position] at taken
      contradiction

/-- Along such a run the unload prints the counts of the searches. -/
theorem listed_reached (indexed : plan.Indexed)
    (reached : plan.calibrateMode.Reaches (Calibrating plan duration) state) :
    Listed plan (fun i => storedCount (plan.header.subtask i).exeTime (duration i)) state := by
  refine reached.invariant (Listed plan _) ?_ ?_
  · rintro _ ⟨now, rfl⟩
    exact ⟨trivial, rfl⟩
  · rintro current event following before listed ⟨admitted, _⟩ taken
    change step plan current event = some following at taken
    by_cases unloads : event = .exit
    · subst unloads
      refine listed.exit taken fun i position more => ?_
      change current.unloadReady plan current.exit at admitted
      rw [position] at admitted
      obtain ⟨value, known⟩ := Option.isSome_iff_exists.mp (admitted more)
      rw [(calibrated_reached indexed before).stored i value known]
      exact result_timed (before.mono fun _ _ both => both.2) known
    · obtain ⟨exit, lines⟩ := step_unlisted taken unloads
      exact ⟨exit ▸ listed.inside, by rw [lines, exit, listed.lines]⟩

/-- The lines of a whole unload are the messages of the table that is left. -/
theorem lines_messages (plan : Plan) (stored : Nat → Nat) :
    (taskLines plan plan.header.taskTot ++ subtaskLines plan stored plan.header.subtaskTot).map FinLine.message =
      (plan.header.withLoopCounts stored).exitMessages := by
  have tasks : (List.range plan.header.taskTot).map (fun k => Message.taskFin (plan.header.task k)) =
      plan.header.tasks.map .taskFin := by
    refine List.ext_getElem (by simp [Header.taskTot]) fun k _ inside => ?_
    rw [List.length_map] at inside
    simp [Header.task, List.getElem?_eq_getElem inside]
  have subtasks : (List.range plan.header.subtaskTot).map
      (fun i => Message.subtaskFin { plan.header.subtask i with loopCount := stored i }) =
      (plan.header.withLoopCounts stored).subtasks.map .subtaskFin := by
    refine List.ext_getElem (by simp [Header.subtaskTot, Header.withLoopCounts]) fun i within _ => ?_
    have inside : i < plan.header.subtasks.length := by simpa [Header.subtaskTot] using within
    simp [Header.subtask, Header.withLoopCounts, List.getElem?_eq_getElem inside]
  simp only [taskLines, subtaskLines, List.map_append, List.map_map, Function.comp_def, FinLine.message]
  rw [tasks, subtasks]
  rfl

end CalibrateMode

/-- A log with the messages of one table gives its arrays. -/
theorem readHeader_collected {log : KernelLog} (tagged : log.Tagged) (table : Table)
    (collected : (log.lines.map LogLine.message).filter Message.isFin = table.exitMessages) :
    readHeader (genHeader log.text) = some table.toHeader := by
  rw [log.printed] at collected
  have tasks := congrArg (List.filterMap Message.task) collected
  have subtasks := congrArg (List.filterMap Message.subtask) collected
  simp only [List.filterMap_flatMap, exitMessages_task, exitMessages_subtask] at tasks subtasks
  rw [readHeader_genHeader tagged, tasks, subtasks]

/-- A calibration that has returned has printed the messages of the calibrated table. -/
theorem calibration_printed (sort : KernelSort) (table : SizedTable) {duration : Nat → Nat → Int}
    {state : CalibrateMode.State}
    (reached : (table.plan sort).calibrateMode.Reaches
      (CalibrateMode.Calibrating (table.plan sort) duration) state)
    (returned : state.exit = .returned) :
    state.lines.map CalibrateMode.FinLine.message = (calibratedTable sort table duration).exitMessages := by
  have printed := (CalibrateMode.listed_reached (Header.plan_indexed sort table.toHeader) reached).lines
  rw [returned] at printed
  rw [printed, CalibrateMode.ExitPc.lines, CalibrateMode.lines_messages]
  rfl

/-- The header that is generated of a calibration is a table again. It is planned like the calibrated table, and holds
the least count that lasts as long as requested for each subtask with such a count, unless the request wraps. -/
theorem calibration_carried (sort : KernelSort) (table : SizedTable) {duration : Nat → Nat → Int}
    {state : CalibrateMode.State}
    (reached : (table.plan sort).calibrateMode.Reaches
      (CalibrateMode.Calibrating (table.plan sort) duration) state)
    (returned : state.exit = .returned) (log : KernelLog) (tagged : log.Tagged)
    (collected : (log.lines.map LogLine.message).filter Message.isFin =
      state.lines.map CalibrateMode.FinLine.message) :
    ∃ generated : SizedTable, readHeader (genHeader log.text) = some generated.toHeader ∧
      (generated.plan sort).Same (table.plan sort) ∧
      (∃ loopCount, generated.toHeader = (table.plan sort).header.withLoopCounts loopCount) ∧
      ∀ i < table.subtaskTot, Monotone (duration i) → Attainable (table.subtask i).exeTime (duration i) →
        (table.subtask i).exeTime * 1000000 < 2 ^ 32 →
          IsLeast {count | ((table.subtask i).exeTime : Int) * 1000000 ≤ duration i count}
            (generated.subtask i).loopCount := by
  rw [calibration_printed sort table reached returned] at collected
  exact ⟨calibratedTable sort table duration,
    readHeader_collected tagged (calibratedTable sort table duration).toTable collected,
    calibratedTable_same sort table duration, ⟨_, rfl⟩,
    fun i inside monotone attainable fits => calibratedTable_least sort table inside monotone attainable fits⟩

namespace CalibrateMode

instance honestClock_decidable (plan : Plan) (duration : Nat → Nat → Int) (state : State) :
    (event : Event) → Decidable (HonestClock plan duration state event)
  | .thread c => decidable_of_iff ((state.thread c).pc = .compare →
      ((state.thread c).endT : Int) - (state.thread c).startT =
        duration (plan.subtaskAt (state.thread c).cur) (state.thread c).mid)
      ⟨fun honest _ same => Event.thread.inj same ▸ honest, fun honest => honest c rfl⟩
  | .init | .exit | .cal | .tick _ => isTrue fun _ other => nomatch other

instance calibrating_decidable (plan : Plan) (duration : Nat → Nat → Int) (state : State) (event : Event) :
    Decidable (Calibrating plan duration state event) := inferInstanceAs (Decidable (_ ∧ _))

/-- Each round of the loop takes 100 ns. -/
def roundTime (_ count : Nat) : Int := count * 100

/-- The first thread calibrates a subtask of one millisecond. -/
def searchEvents : List Event :=
  List.replicate 3 (.thread 0) ++
    (timedSearch 1000000 (roundTime 0) 27).measured.flatMap (fun probe =>
      List.replicate 3 (.thread 0) ++ .tick (probe.1 * 100) :: List.replicate 3 (.thread 0)) ++
    List.replicate 4 (.thread 0)

/-- The first thread calibrates both subtasks of the pair, and the unload follows. -/
def carriedEvents : List Event := List.flatten
  [List.replicate 8 .init, [.tick 100000000],
    List.replicate 4 (.thread 0), List.replicate 4 (.thread 1), List.replicate 4 (.thread 2),
    List.replicate 5 .cal, List.replicate 2 (.thread 1), List.replicate 2 (.thread 2),
    List.replicate 2 (.thread 0), searchEvents, searchEvents, [.thread 0], List.replicate 9 .exit]

end CalibrateMode

open CalibrateMode in
/-- The header of the pair holds a count of 10000 for its first subtask. -/
theorem calibration_carried_pair : ∃ (log : KernelLog) (generated : SizedTable),
    readHeader (genHeader log.text) = some generated.toHeader ∧ (generated.subtask 0).loopCount = 10000 := by
  let plan := sizedPair.plan insertionSort
  have initial : plan.calibrateMode.start (.loaded plan 0) := ⟨0, rfl⟩
  have admitted : plan.calibrateMode.admits (Calibrating plan roundTime) (.loaded plan 0) carriedEvents = true := by
    decide +kernel
  have executed : (plan.calibrateMode.execute (.loaded plan 0) carriedEvents).map (fun state => state.exit) =
      some .returned := by decide +kernel
  obtain ⟨state, reached, returned⟩ := Machine.admits_shows initial carriedEvents admitted _ executed
  let log := KernelLog.ofSessions stamp stamp_plain
    [.calibrate (calibratedTable insertionSort sizedPair roundTime).toTable false]
  have collected : (log.lines.map LogLine.message).filter Message.isFin = state.lines.map FinLine.message := by
    rw [log.printed, calibration_printed insertionSort sizedPair reached returned]
    exact List.append_nil _
  obtain ⟨generated, read, _, _, least⟩ := calibration_carried insertionSort sizedPair reached returned log
    (KernelLog.ofSessions_tagged stamp_plain _) collected
  have monotone : Monotone (roundTime 0) := fun count larger grows =>
    Int.mul_le_mul_of_nonneg_right (Int.ofNat_le.2 grows) (by decide)
  refine ⟨log, generated, read, (least 0 (by decide) monotone ⟨10000, by decide, by decide⟩ (by decide)).unique ?_⟩
  refine ⟨by decide, fun count enough => ?_⟩
  change (1 : Int) * 1000000 ≤ count * 100 at enough
  omega

end KernelStudio.EndToEnd
