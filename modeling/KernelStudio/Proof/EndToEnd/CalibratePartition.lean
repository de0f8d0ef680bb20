/-
This file proves that the calibrate threads share the subtasks out among themselves: a log of the calibrations
holds the segment of each core in `sub_ptr`, in its order.
-/

import KernelStudio.Proof.EndToEnd.DeadlineOrder
import KernelStudio.Proof.EndToEnd.LoopCount

namespace KernelStudio.EndToEnd

open Runs Transition

namespace CalibrateMode

/-- A thread that stores its last bound has calibrated the subtask at its position. -/
def calibrations (plan : Plan) (state : State) : Event → List (Nat × Nat)
  | .thread c => if (state.thread c).pc = .maxCnt then [(c, plan.subtaskAt (state.thread c).cur)] else []
  | .init | .exit | .cal | .tick _ => []

/-- The subtasks that one thread has calibrated, in their order. -/
def calibrated (log : List (Nat × Nat)) (c : Nat) : List Nat :=
  (log.filter fun entry => entry.1 = c).map Prod.snd

/-- The subtasks from the start address of a thread up to a position, which belong to its core. -/
structure Walked (plan : Plan) (c position : Nat) (done : List Nat) : Prop where
  after : plan.startAddr c ≤ position
  own : ∀ earlier, plan.startAddr c ≤ earlier → earlier < position → plan.coreAt earlier = c
  done : done = (List.range' (plan.startAddr c) (position - plan.startAddr c)).map plan.subtaskAt

/-- Where a thread stands in its segment. -/
def Thread.Walks (plan : Plan) (c : Nat) (done : List Nat) (cur : Thread) : Prop :=
  match cur.pc with
  | .unborn => done = []
  | .created | .kthread | .core => cur.cur = plan.startAddr c ∧ done = []
  | .setCurrentState | .schedule _ | .coreNum =>
      cur.cur = plan.startAddr c ∧ cur.core = plan.coreAt (plan.startAddr c) ∧ done = []
  | .whileCore => cur.core = c ∧ Walked plan c cur.cur done
  | .printk | .next => cur.core = c ∧ Walked plan c (cur.cur + 1) done
  | .exited => ∃ last, plan.coreAt last ≠ c ∧ Walked plan c last done
  | _ => cur.core = c ∧ plan.coreAt cur.cur = c ∧ Walked plan c cur.cur done

variable {plan : Plan} {c now position : Nat} {cur later : Thread} {done : List Nat} {write : Write}

theorem Walked.start (plan : Plan) (c : Nat) : Walked plan c (plan.startAddr c) [] :=
  ⟨le_rfl, fun earlier above below => absurd below (Nat.not_lt_of_le above), by simp⟩

theorem Walked.of_nil (none : done = []) : Walked plan c (plan.startAddr c) done := none ▸ Walked.start plan c

/-- The subtask at the end of the walk joins it. -/
theorem Walked.succ (walked : Walked plan c position done) (own : plan.coreAt position = c) :
    Walked plan c (position + 1) (done ++ [plan.subtaskAt position]) := by
  have after := walked.after
  refine ⟨Nat.le_succ_of_le after, fun earlier above below => ?_, ?_⟩
  · rcases Nat.lt_succ_iff_lt_or_eq.mp below with less | rfl
    · exact walked.own earlier above less
    · exact own
  · rw [walked.done, Nat.succ_sub after, List.range'_concat, List.map_append, Nat.one_mul,
      Nat.add_sub_cancel' after]
    rfl

theorem Thread.walks_iff (searching : cur.pc.searching = true) : cur.Walks plan c done ↔
    cur.core = c ∧ plan.coreAt cur.cur = c ∧ Walked plan c cur.cur done := by
  unfold Thread.Walks
  cases pc : cur.pc <;> simp_all [Pc.searching]

/-- A wake-up keeps a thread where it stands. -/
theorem Thread.walks_wake (walks : cur.Walks plan c done) :
    Thread.Walks plan c done { cur with pc := cur.pc.wake } := by
  unfold Thread.Walks at walks ⊢
  cases pc : cur.pc <;> rw [pc] at walks <;> exact walks

theorem lt_of_coreAt_ne (apart : plan.coreAt position ≠ coreNum) : position < plan.header.subtaskTot := by
  by_contra outside
  exact apart (if_neg outside)

/-- A statement other than the last store logs nothing and keeps the walk. -/
theorem Move.walks (indexed : plan.Indexed) (known : c < coreNum) (walks : cur.Walks plan c done)
    (other : cur.pc ≠ .maxCnt) (move : Move plan cur later write) : later.Walks plan c done := by
  cases move with
  | search later write before after sameCur sameCore _ =>
      rw [Thread.walks_iff before] at walks
      rwa [Thread.walks_iff after, sameCur, sameCore]
  | begin pc =>
      rw [Thread.Walks, pc] at walks
      exact walks
  | core pc =>
      rw [Thread.Walks, pc] at walks
      exact ⟨walks.1, congrArg plan.coreAt walks.1, walks.2⟩
  | mark pc | sleep pc | woken pc =>
      rw [Thread.Walks, pc] at walks
      exact walks
  | empty pc sentinel =>
      rw [Thread.Walks, pc] at walks
      obtain ⟨_, core, rfl⟩ := walks
      exact ⟨plan.startAddr c, by omega, .start plan c⟩
  | enter pc inside =>
      rw [Thread.Walks, pc] at walks
      obtain ⟨start, core, rfl⟩ := walks
      refine ⟨?_, start ▸ .start plan c⟩
      change cur.core = c
      rw [core] at inside ⊢
      exact indexed.startAddr c (lt_of_coreAt_ne inside)
  | work pc same =>
      rw [Thread.Walks, pc] at walks
      exact ⟨walks.1, same.trans walks.1, walks.2⟩
  | leave pc apart =>
      rw [Thread.Walks, pc] at walks
      exact ⟨cur.cur, walks.1 ▸ apart, walks.2⟩
  | final pc => exact absurd pc other
  | printk pc =>
      rw [Thread.Walks, pc] at walks
      exact walks
  | next pc =>
      rw [Thread.Walks, pc] at walks
      exact walks

/-- The last store of a search logs its subtask. -/
theorem calibrate_maxCnt (taken : calibrate plan now cur = some (later, write)) (pc : cur.pc = .maxCnt) :
    later = { cur with pc := .printk } := by
  rw [calibrate, pc] at taken
  exact (congrArg Prod.fst (Option.some.inj taken)).symm

theorem calibrated_concat (log : List (Nat × Nat)) (entry : Nat × Nat) (c : Nat) :
    calibrated (log ++ [entry]) c = calibrated log c ++ if entry.1 = c then [entry.2] else [] := by
  by_cases own : entry.1 = c <;> simp [calibrated, own]

/-- Each thread has logged its walk. -/
structure Shared (plan : Plan) (pair : State × List (Nat × Nat)) : Prop where
  walks : ∀ c < coreNum, (pair.1.thread c).Walks plan c (calibrated pair.2 c)
  known : ∀ entry ∈ pair.2, entry.1 < coreNum

variable {state next : State} {log : List (Nat × Nat)}

theorem shared_thread (indexed : plan.Indexed) (calibrating : Calibrated plan state)
    (shared : Shared plan (state, log)) (taken : step plan state (.thread c) = some next) :
    Shared plan (next, log ++ calibrations plan state (.thread c)) := by
  have inside := (calibrating.lt_coreNum taken).trans_le calibrating.born
  obtain ⟨⟨later, write⟩, statement, rfl⟩ := Option.map_eq_some_iff.mp taken
  have walks := shared.walks c inside
  by_cases pc : (state.thread c).pc = .maxCnt
  · obtain rfl := calibrate_maxCnt statement pc
    rw [Thread.walks_iff (pc ▸ rfl)] at walks
    obtain ⟨core, own, walked⟩ := walks
    rw [calibrations, if_pos pc]
    refine ⟨fun other known => ?_, fun entry listed => ?_⟩
    · rw [thread_write, calibrated_concat]
      by_cases same : other = c
      · subst same
        rw [set_self, if_pos rfl]
        exact ⟨core, walked.succ own⟩
      · rw [set_other _ _ same, if_neg (Ne.symm same), List.append_nil]
        exact shared.walks other known
    · rcases List.mem_append.mp listed with old | new
      · exact shared.known entry old
      · rw [List.mem_singleton.mp new]
        exact inside
  · rw [calibrations, if_neg pc, List.append_nil]
    refine ⟨fun other known => ?_, shared.known⟩
    rw [thread_write]
    by_cases same : other = c
    · rw [same, set_self]
      exact (calibrate_move statement).walks indexed inside walks pc
    · rw [set_other _ _ same]
      exact shared.walks other known

/-- A thread that does not take a statement of its own keeps its walk. -/
theorem shared_environment {event : Event} (calibrating : Calibrated plan state) (shared : Shared plan (state, log))
    (taken : step plan state event = some next) (other : ∀ c, event ≠ .thread c) : Shared plan (next, log) := by
  refine ⟨fun c known => ?_, shared.known⟩
  have walks := shared.walks c known
  rcases (step_threads taken other).2 c with same | woken | ⟨position, created⟩
  · rwa [same]
  · rw [woken]
    exact Thread.walks_wake walks
  · rw [calibrating.unborn c (by rw [position]; exact Nat.le_refl c)] at walks
    rw [created]
    exact ⟨rfl, walks⟩

/-- The log of each run holds the walks of its threads. -/
theorem shared_reached {guard : Guard State Event} (indexed : plan.Indexed) {pair : State × List (Nat × Nat)}
    (reached : (plan.calibrateMode.logged (calibrations plan)).Reaches guard.logged pair) : Shared plan pair := by
  refine reached.invariant (Shared plan) ?_ ?_
  · rintro ⟨_, _⟩ ⟨⟨now, rfl⟩, rfl⟩
    exact ⟨fun _ _ => rfl, fun _ none => absurd none List.not_mem_nil⟩
  · rintro ⟨current, log⟩ event ⟨following, later⟩ before shared _ taken
    obtain ⟨moved, rfl⟩ := Machine.logged_step taken
    have calibrating : Calibrated plan current := calibrated_reached indexed before.forget
    change step plan current event = some following at moved
    by_cases own : ∃ c, event = .thread c
    · obtain ⟨c, rfl⟩ := own
      exact shared_thread indexed calibrating shared moved
    · have quiet : calibrations plan current event = [] := by
        cases event with
        | thread c => exact absurd ⟨c, rfl⟩ own
        | init | exit | cal | tick _ => rfl
      rw [quiet, List.append_nil]
      exact shared_environment calibrating shared moved fun c same => own ⟨c, same⟩

theorem coreAt_of_lt (inside : position < plan.header.subtaskTot) : plan.coreAt position = plan.coreOf position :=
  if_pos inside

/-- A position of a core is a subtask. -/
theorem lt_of_coreAt_eq (known : c < coreNum) (own : plan.coreAt position = c) :
    position < plan.header.subtaskTot := Plan.lt_of_coreAt (own.symm ▸ known)

section Segments

variable (counted : plan.Counted)

include counted

/-- A walk stays in front of the sentinel. -/
theorem Walked.le (known : c < coreNum) (walked : Walked plan c position done) :
    position ≤ plan.header.subtaskTot := by
  rcases Nat.eq_or_lt_of_le walked.after with start | less
  · exact start ▸ counted.limit c
  · obtain ⟨before, rfl⟩ := Nat.exists_eq_succ_of_ne_zero (Nat.ne_of_gt (Nat.zero_lt_of_lt less))
    exact lt_of_coreAt_eq known (walked.own before (Nat.le_of_lt_succ less) (Nat.lt_succ_self before))

/-- The priorities go down along a walk. -/
theorem Walked.descending (indexed : plan.Indexed) (grouped : plan.CoresGrouped)
    (few : ∀ core, (plan.members core).length ≤ 50) (known : c < coreNum) (walked : Walked plan c position done) :
    done.Pairwise fun i j => (plan.header.subtask j).priority < (plan.header.subtask i).priority := by
  rw [walked.done, List.pairwise_map]
  refine (List.pairwise_lt_range' _ Nat.one_pos).imp_of_mem fun {first last} left right less => ?_
  rw [List.mem_range'_1] at left right
  have own := walked.own first left.1 (by omega)
  have inside := lt_of_coreAt_eq known own
  have other := walked.own last right.1 (by omega)
  have within := lt_of_coreAt_eq known other
  rw [coreAt_of_lt inside] at own
  rw [coreAt_of_lt within] at other
  exact counted.decreasing indexed grouped few less within (own.trans other.symm)

/-- A walk that has met another core has passed all positions of its own. -/
theorem Walked.complete (indexed : plan.Indexed) (grouped : plan.CoresGrouped) (known : c < coreNum)
    (walked : Walked plan c position done) (ended : plan.coreAt position ≠ c) : done.Perm (plan.members c) := by
  have after := walked.after
  refine List.Perm.trans (List.Perm.of_eq ?_) (indexed.members_perm c).symm
  rw [walked.done]
  congr 1
  by_cases some : plan.startAddr c < plan.header.subtaskTot
  · obtain ⟨zero, own⟩ := counted.start c some
    have segment := grouped.segment some zero
    rw [own] at segment
    have member (distance : Nat) : distance < (positions plan.coreOf plan.header.subtaskTot c).length ↔
        plan.coreAt (plan.startAddr c + distance) = c := by
      have listed : plan.startAddr c + distance ∈ positions plan.coreOf plan.header.subtaskTot c ↔
          distance < (positions plan.coreOf plan.header.subtaskTot c).length := by
        rw [segment]
        simp
      rw [← listed, mem_positions]
      constructor
      · rintro ⟨inside, same⟩
        rwa [coreAt_of_lt inside]
      · intro same
        have inside := lt_of_coreAt_eq known same
        rw [coreAt_of_lt inside] at same
        exact ⟨inside, same⟩
    have length : position - plan.startAddr c = (positions plan.coreOf plan.header.subtaskTot c).length := by
      apply Nat.le_antisymm
      · refine Nat.le_of_not_lt fun beyond => ?_
        exact Nat.lt_irrefl _ ((member _).mpr (walked.own _ (Nat.le_add_right _ _) (by omega)))
      · refine Nat.le_of_not_lt fun early => ended ?_
        have here := (member _).mp early
        rwa [Nat.add_sub_cancel' after] at here
    rw [length, segment, List.length_map, List.length_range, List.range'_eq_map_range]
  · have sentinel : position = plan.startAddr c := by
      by_contra apart
      exact some (lt_of_coreAt_eq known (walked.own _ le_rfl (by omega)))
    have none : positions plan.coreOf plan.header.subtaskTot c = [] := by
      refine List.eq_nil_iff_forall_not_mem.mpr fun earlier listed => some ?_
      obtain ⟨inside, rfl⟩ := mem_positions.mp listed
      exact counted.found earlier inside
    rw [sentinel, none, Nat.sub_self]
    rfl

end Segments

/-- The statements that a thread has left at most. One position takes less than 600000007 of them. -/
def Thread.variant (plan : Plan) (cur : Thread) : Nat :=
  let here := (plan.header.subtaskTot - cur.cur) * 600000007
  let rest := (plan.header.subtaskTot - (cur.cur + 1)) * 600000007
  let width := cur.maxCnt - cur.minCnt
  match cur.pc with
  | .unborn => plan.header.subtaskTot * 600000007 + 8
  | .created | .kthread => here + 7
  | .core => here + 6
  | .setCurrentState => here + 5
  | .schedule .interruptible => here + 4
  | .schedule _ => here + 3
  | .coreNum => here + 2
  | .whileCore => here + 1
  | .setScheduler => rest + 600000007
  | .bounds => rest + 600000006
  | .whileBounds => rest + 6 * width + 5
  | .mid => rest + 6 * width + 4
  | .startT => rest + 6 * width + 3
  | .subtaskFunc => rest + 6 * width + 2
  | .endT => rest + 6 * width + 1
  | .compare => rest + 6 * width
  | .maxCnt => rest + 4
  | .printk => rest + 3
  | .next => rest + 2
  | .exited => 0

theorem Thread.variant_wake (cur : Thread) :
    Thread.variant plan { cur with pc := cur.pc.wake } ≤ cur.variant plan := by
  unfold Thread.variant
  cases pc : cur.pc with
  | schedule state => cases state <;> simp [Pc.wake]
  | _ => simp [Pc.wake]

/-- A round of the inner loop narrows the bounds. -/
theorem narrows {cur : Thread} (isOpen : cur.minCnt < cur.maxCnt) (bounded : cur.maxCnt ≤ 100000000)
    (mid : cur.mid = u32 (cur.minCnt + cur.maxCnt) >>> 1) :
    cur.mid < cur.maxCnt ∧ cur.minCnt ≤ cur.mid ∧ u32 (cur.mid + 1) = cur.mid + 1 := by
  rw [u32_of_lt (by omega), Nat.shiftRight_eq_div_pow] at mid
  refine ⟨by omega, by omega, u32_of_lt (by omega)⟩

theorem Thread.Bounds.bounded {durations : List Int} (bounds : cur.Bounds plan durations) : cur.maxCnt ≤ 100000000 :=
  bounds.2 ▸ (loopSearch_exact _ durations).bounded

theorem variant_upper (pc : cur.pc = .compare) (upper : cur.mid < cur.maxCnt) (lower : cur.minCnt ≤ cur.mid) :
    Thread.variant plan { cur with maxCnt := cur.mid, pc := .whileBounds } + 1 ≤ cur.variant plan := by
  simp only [Thread.variant, pc]
  omega

theorem variant_lower (pc : cur.pc = .compare) (upper : cur.mid < cur.maxCnt) (lower : cur.minCnt ≤ cur.mid) :
    Thread.variant plan { cur with minCnt := cur.mid + 1, pc := .whileBounds } + 1 ≤ cur.variant plan := by
  simp only [Thread.variant, pc]
  omega

/-- Each statement of a thread pays for itself. -/
theorem calibrate_variant (known : c < coreNum) (owns : cur.Owns plan c) (searches : cur.Searches plan)
    (taken : calibrate plan now cur = some (later, write)) : later.variant plan + 1 ≤ cur.variant plan := by
  unfold calibrate at taken
  split at taken <;> simp only [reduceCtorEq, Option.some.injEq, Prod.mk.injEq] at taken <;>
    obtain ⟨rfl, rfl⟩ := taken
  · next pc =>
      simp only [Thread.variant, pc]
      omega
  · next pc =>
      simp only [Thread.variant, pc]
      omega
  · next pc =>
      simp only [Thread.variant, pc]
      omega
  · next pc =>
      simp only [Thread.variant, pc]
      omega
  · next pc =>
      simp only [Thread.variant, pc]
      omega
  · next pc =>
      by_cases empty : cur.core = coreNum
      all_goals simp only [Thread.variant, pc, empty, if_true, if_false]
      all_goals omega
  · next pc =>
      by_cases work : plan.coreAt cur.cur = cur.core
      · rw [Thread.Owns, pc] at owns
        have inside := lt_of_coreAt_eq known (work.trans owns)
        simp only [Thread.variant, pc, work, if_true]
        omega
      · simp only [Thread.variant, pc, work, if_false]
        omega
  · next pc =>
      simp only [Thread.variant, pc]
      omega
  · next pc =>
      simp only [Thread.variant, pc]
      omega
  · next pc =>
      by_cases isOpen : cur.minCnt < cur.maxCnt
      all_goals simp only [Thread.variant, pc, isOpen, if_true, if_false]
      all_goals omega
  · next pc =>
      simp only [Thread.variant, pc]
      omega
  · next pc =>
      simp only [Thread.variant, pc]
      omega
  · next pc =>
      simp only [Thread.variant, pc]
      omega
  · next pc =>
      simp only [Thread.variant, pc]
      omega
  · next pc =>
      rw [Thread.Searches, pc] at searches
      obtain ⟨isOpen, mid, durations, bounds⟩ := searches
      obtain ⟨upper, lower, word⟩ := narrows isOpen bounds.bounded mid
      by_cases enough : cur.startT + plan.target cur.cur ≤ cur.endT
      · rw [if_pos enough]
        exact variant_upper pc upper lower
      · rw [if_neg enough, word]
        exact variant_lower pc upper lower
  · next pc =>
      simp only [Thread.variant, pc]
      omega
  · next pc =>
      simp only [Thread.variant, pc]
      omega
  · next pc =>
      simp only [Thread.variant, pc]
      omega

theorem variant_wakeUpProcess (state : State) (i c : Nat) :
    ((state.wakeUpProcess i).thread c).variant plan ≤ (state.thread c).variant plan := by
  rcases wakeUpProcess_thread state i c with same | woken
  · rw [same]
  · rw [woken]
    exact Thread.variant_wake _

/-- No step gives a thread more to do, and its own steps leave it less. -/
theorem variant_step (indexed : plan.Indexed) (event : Event) (reached : plan.calibrateMode.Reachable state)
    (taken : step plan state event = some next) :
    (next.thread c).variant plan + (if event = .thread c then 1 else 0) ≤ (state.thread c).variant plan := by
  have calibrating := calibrated_reached indexed reached
  cases event with
  | thread other =>
      have inside := (calibrating.lt_coreNum taken).trans_le calibrating.born
      obtain ⟨⟨later, write⟩, statement, rfl⟩ := Option.map_eq_some_iff.mp taken
      rw [thread_write]
      by_cases own : c = other
      · subst own
        rw [set_self, if_pos rfl]
        exact calibrate_variant inside (calibrating.owns c) ((searched_reached reached).threads c) statement
      · rw [set_other _ _ own, if_neg (by simpa using Ne.symm own), Nat.add_zero]
  | init =>
      rw [if_neg (by simp), Nat.add_zero]
      rcases step_init taken with ⟨i, position, _, rfl⟩ | ⟨i, _, _, rfl⟩ | ⟨i, _, rfl⟩ | ⟨_, rfl⟩
      · by_cases own : c = i
        · subst own
          rw [set_self, calibrating.unborn c (by rw [position]; exact Nat.le_refl c)]
          simp only [Thread.variant]
          omega
        · rw [set_other _ _ own]
      · exact le_rfl
      · exact variant_wakeUpProcess _ _ _
      · exact le_rfl
  | exit =>
      rw [if_neg (by simp), Nat.add_zero]
      rcases step_exit taken with ⟨_, _, rfl⟩ | ⟨k, _, rfl⟩ | ⟨k, _, rfl⟩ | ⟨i, _, _, rfl⟩ | ⟨i, _, _, rfl⟩ |
        ⟨_, rfl⟩ | ⟨_, rfl⟩ | ⟨_, rfl⟩
      all_goals exact le_rfl
  | cal =>
      rw [if_neg (by simp), Nat.add_zero]
      rcases step_cal taken with ⟨_, _, rfl⟩ | ⟨k, _, _, rfl⟩ | ⟨_, _, _, rfl⟩
      · exact le_rfl
      · exact variant_wakeUpProcess _ _ _
      · exact le_rfl
  | tick duration =>
      obtain rfl := Option.some.inj taken
      rw [if_neg (by simp), Nat.add_zero]

/-- A thread that cannot step has not started, sleeps or has ended. -/
theorem pc_of_blocked (blocked : calibrate plan now cur = none) :
    cur.pc = .unborn ∨ cur.pc = .created ∨ cur.pc = .schedule .asleep ∨ cur.pc = .exited := by
  unfold calibrate at blocked
  split at blocked <;> simp_all

/-- A thread dereferences `sub_ptr` up to the sentinel only. -/
theorem Thread.Walks.cur_le (counted : plan.Counted) (known : c < coreNum) (walks : cur.Walks plan c done)
    (reads : cur.pc.dereferences = true) : cur.cur ≤ plan.header.subtaskTot := by
  by_cases searching : cur.pc.searching = true
  · rw [Thread.walks_iff searching] at walks
    exact walks.2.2.le counted known
  · unfold Thread.Walks at walks
    cases pc : cur.pc <;> rw [pc] at walks reads searching
    case core => exact walks.1 ▸ counted.limit c
    case whileCore => exact walks.2.le counted known
    case printk => exact Nat.le_of_succ_le (walks.2.le counted known)
    all_goals first | exact absurd rfl searching | exact absurd reads Bool.false_ne_true

/-- The steps of a run without an unload. -/
def withoutUnload : Guard State Event := fun _ event => event ≠ .exit

instance (state : State) (event : Event) : Decidable (withoutUnload state event) :=
  inferInstanceAs (Decidable (event ≠ .exit))

/-- How the threads share the subtasks out, as far as they have come. -/
structure Partitioned (plan : Plan) (state : State) (log : List (Nat × Nat)) : Prop where
  finished : ∀ c < coreNum, (state.thread c).pc = .exited → (calibrated log c).Perm (plan.members c)
  descending : (∀ core < coreNum, (plan.members core).length ≤ 50) → ∀ c < coreNum,
    (calibrated log c).Pairwise fun i j => (plan.header.subtask j).priority < (plan.header.subtask i).priority
  together : (∀ c < coreNum, (state.thread c).pc = .exited) →
    (log.map Prod.snd).Perm (List.range plan.header.subtaskTot)
  inside : ∀ c < coreNum, (state.thread c).pc.dereferences = true →
    (state.thread c).cur ≤ plan.header.subtaskTot
  runs : ∀ c, plan.calibrateMode.step state (.thread c) = none → (state.thread c).pc = .unborn ∨
    (state.thread c).pc = .created ∨ (state.thread c).pc = .schedule .asleep ∨ (state.thread c).pc = .exited

/-- Each walk is one of a position with its subtasks. -/
theorem Thread.Walks.exists_walked (walks : cur.Walks plan c done) : ∃ position, Walked plan c position done := by
  by_cases searching : cur.pc.searching = true
  · rw [Thread.walks_iff searching] at walks
    exact ⟨_, walks.2.2⟩
  · unfold Thread.Walks at walks
    cases pc : cur.pc <;> rw [pc] at walks searching
    case unborn => exact ⟨_, .of_nil walks⟩
    case created | kthread | core => exact ⟨_, .of_nil walks.2⟩
    case setCurrentState | schedule | coreNum => exact ⟨_, .of_nil walks.2.2⟩
    case whileCore | printk | next => exact ⟨_, walks.2⟩
    case exited =>
      obtain ⟨last, _, walked⟩ := walks
      exact ⟨last, walked⟩
    all_goals exact absurd rfl searching

/-- When all threads have ended, their logs together hold each subtask once. -/
theorem Shared.together (shared : Shared plan (state, log)) (inside : ∀ i < plan.header.subtaskTot,
      (plan.header.subtask i).core < coreNum)
    (finished : ∀ c < coreNum, (calibrated log c).Perm (plan.members c)) :
    (log.map Prod.snd).Perm (List.range plan.header.subtaskTot) := by
  have parts := (perm_flatMap_filter Prod.fst coreNum shared.known).map Prod.snd
  rw [List.map_flatMap] at parts
  have cores := perm_flatMap_filter (fun i => (plan.header.subtask i).core) coreNum
    fun i listed => inside i (List.mem_range.mp listed)
  refine parts.trans (List.Perm.trans ?_ cores.symm)
  exact List.Perm.flatMap_left _ fun c known => finished c (List.mem_range.mp known)

end CalibrateMode

open CalibrateMode in
/-- The calibrate threads calibrate each subtask once, on its own core and with descending priorities, and each of
them takes a bounded number of steps. -/
theorem calibrate_partition (sort : KernelSort) (table : SizedTable) (below : table.ProductsBelow) :
    (∀ state log, ((table.plan sort).calibrateMode.logged (calibrations (table.plan sort))).Reaches
      withoutUnload.logged (state, log) → Partitioned (table.plan sort) state log) ∧
    ∀ now events final c, (table.plan sort).calibrateMode.execute (.loaded (table.plan sort) now) events = some final →
      events.count (.thread c) ≤ table.subtaskTot * 600000007 + 8 := by
  have indexed := table.plan_indexed sort
  have counted := table.plan_counted sort
  have grouped : (table.plan sort).CoresGrouped := below.grouped table.wellFormed table.sized
  constructor
  · intro state log reached
    have shared := shared_reached indexed reached
    have finished (c : Nat) (known : c < coreNum) (exited : (state.thread c).pc = .exited) :
        (calibrated log c).Perm ((table.plan sort).members c) := by
      have walks := shared.walks c known
      rw [Thread.Walks, exited] at walks
      obtain ⟨last, apart, walked⟩ := walks
      exact walked.complete counted indexed grouped known apart
    refine ⟨finished, fun few c known => ?_, fun exited => ?_, fun c known reads => ?_, fun c blocked => ?_⟩
    · obtain ⟨position, walked⟩ := (shared.walks c known).exists_walked
      exact walked.descending counted indexed grouped (Header.members_few sort few) known
    · refine shared.together (fun i inside => ?_) fun c known => finished c known (exited c known)
      rw [Header.plan_subtaskTot] at inside
      exact Header.plan_core_lt sort inside
    · exact (shared.walks c known).cur_le counted known reads
    · exact pc_of_blocked (Option.map_eq_none_iff.mp blocked)
  · intro now events final c executed
    have bound := Machine.count_le_variant (.thread c) (fun state => (state.thread c).variant (table.plan sort))
      (fun state event next reached taken => variant_step indexed event reached taken) events
      (.start ⟨now, rfl⟩) executed
    change _ ≤ (table.plan sort).header.subtaskTot * 600000007 + 8 at bound
    rwa [Header.plan_subtaskTot] at bound

open CalibrateMode in
/-- All threads are created and sleep, the timer wakes them, and the first thread calibrates both subtasks. -/
def pairCalibration : List CalibrateMode.Event := List.flatten
  [List.replicate 8 .init, List.replicate 4 (.thread 0), List.replicate 4 (.thread 1), List.replicate 4 (.thread 2),
    [.tick 100000000], List.replicate 5 .cal, List.replicate 2 (.thread 1), List.replicate 2 (.thread 2),
    List.replicate 329 (.thread 0)]

open CalibrateMode in
/-- The calibrate mode of the pair with its log. -/
abbrev pairCalibrateMode : Machine (CalibrateMode.State × List (Nat × Nat)) CalibrateMode.Event :=
  (sizedPair.plan insertionSort).calibrateMode.logged (calibrations (sizedPair.plan insertionSort))

open CalibrateMode in
/-- The threads of the pair end, and they have calibrated both subtasks. -/
theorem calibrate_partition_pair : ∃ state log, pairCalibrateMode.Reaches withoutUnload.logged (state, log) ∧
    (∀ c < coreNum, (state.thread c).pc = .exited) ∧ (log.map Prod.snd).Perm (List.range 2) := by
  have below : sizedPair.ProductsBelow := by decide
  have initial : pairCalibrateMode.start (.loaded (sizedPair.plan insertionSort) 0, []) := ⟨⟨0, rfl⟩, rfl⟩
  have admitted : pairCalibrateMode.admits withoutUnload.logged (.loaded (sizedPair.plan insertionSort) 0, [])
      pairCalibration = true := by decide +kernel
  have executed : (pairCalibrateMode.execute (.loaded (sizedPair.plan insertionSort) 0, []) pairCalibration).map
      (fun pair => decide (∀ c < coreNum, (pair.1.thread c).pc = .exited)) = some true := by decide +kernel
  obtain ⟨⟨state, log⟩, reached, shown⟩ := Machine.admits_shows initial pairCalibration admitted _ executed
  have exited := of_decide_eq_true shown
  exact ⟨state, log, reached, exited,
    ((calibrate_partition insertionSort sizedPair below).1 state log reached).together exited⟩

end KernelStudio.EndToEnd
