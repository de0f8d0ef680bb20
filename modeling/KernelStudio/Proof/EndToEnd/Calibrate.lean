/-
This file gives what a step of the calibrate mode can do, and the invariants of its runs: each thread works on the
subtasks of its own core, and a result stays where its search has left it.
-/

import KernelStudio.Construction.EndToEnd.CalibrateMode
import KernelStudio.Proof.EndToEnd.Plan

namespace KernelStudio.EndToEnd

open Transition

/-- The entries of `sub_ptr` are the subtasks, and the start address of a core with subtasks is one of its entries. -/
structure Plan.Indexed (plan : Plan) : Prop where
  subPtr : plan.subPtr.Perm (List.range plan.header.subtaskTot)
  startAddr : ∀ c, plan.startAddr c < plan.header.subtaskTot → plan.coreAt (plan.startAddr c) = c

section Indexed

variable {plan : Plan} {k j : Nat}

theorem Plan.Indexed.length (indexed : plan.Indexed) : plan.subPtr.length = plan.header.subtaskTot := by
  rw [indexed.subPtr.length_eq, List.length_range]

/-- Different positions hold different subtasks. -/
theorem Plan.Indexed.subtaskAt_inj (indexed : plan.Indexed) (left : k < plan.header.subtaskTot)
    (right : j < plan.header.subtaskTot) (same : plan.subtaskAt k = plan.subtaskAt j) : k = j := by
  rw [← indexed.length] at left right
  rw [Plan.subtaskAt, Plan.subtaskAt, List.getD_eq_getElem _ _ left, List.getD_eq_getElem _ _ right] at same
  exact (List.Nodup.getElem_inj_iff (indexed.subPtr.nodup_iff.mpr List.nodup_range)).mp same

theorem Plan.lt_of_coreAt (inside : plan.coreAt k < coreNum) : k < plan.header.subtaskTot := by
  by_contra outside
  rw [coreAt, if_neg outside] at inside
  exact Nat.lt_irrefl _ inside

end Indexed

/-- The priority loop sets the start address of a core to a position of the core. -/
theorem startAddr_rank (header : Header) (subPtr : List Nat) (positions : List Nat) (ranking : Ranking)
    (inside : ∀ position ∈ positions, position < header.subtaskTot)
    (known : ∀ c position, ranking.startAddr c = some position →
      position < header.subtaskTot ∧ (header.subtask (subPtr.getD position 0)).core = c) :
    ∀ c position, (positions.foldl (header.rank subPtr) ranking).startAddr c = some position →
      position < header.subtaskTot ∧ (header.subtask (subPtr.getD position 0)).core = c := by
  induction positions generalizing ranking with
  | nil => exact known
  | cons first rest ih =>
      refine ih _ (fun position listed => inside position (List.mem_cons_of_mem first listed)) ?_
      intro c position found
      unfold Header.rank at found
      dsimp only at found
      split at found
      · by_cases same : c = (header.subtask (subPtr.getD first 0)).core
        · simp only [same, Function.update_self, Option.some.injEq] at found
          exact ⟨found ▸ inside first List.mem_cons_self, by rw [same, found]⟩
        · simp only [Function.update_of_ne same] at found
          exact known c position found
      · exact known c position found

/-- Each plan is indexed. -/
theorem Header.plan_indexed (sort : KernelSort) (header : Header) : (header.plan sort).Indexed := by
  have total := plan_subtaskTot sort header
  have subPtr : (header.plan sort).subPtr.Perm (List.range header.subtaskTot) :=
    (sort.perm _ _).trans (sort.perm _ _)
  refine ⟨total.symm ▸ subPtr, fun c inside => ?_⟩
  let placed := header.timed.withCores (header.placement sort)
  let ranking := (List.range header.subtaskTot).foldl (placed.rank (header.plan sort).subPtr)
    { priority := fun i => (header.subtask i).priority }
  have start : (header.plan sort).startAddr c = (ranking.startAddr c).getD header.subtaskTot := rfl
  cases found : ranking.startAddr c with
  | none =>
      rw [start, found, total] at inside
      exact absurd inside (Nat.lt_irrefl _)
  | some position =>
      obtain ⟨below, core⟩ := startAddr_rank placed _ _ _ (fun position listed => by
        rw [placed_subtaskTot]
        exact List.mem_range.mp listed) (fun _ _ (none : none = some _) => nomatch none) c position found
      rw [start, found, Option.getD_some, Plan.coreAt]
      rw [placed_subtaskTot] at below
      have listed : (header.plan sort).subPtr.getD position 0 < header.subtaskTot := by
        rw [← List.mem_range, ← subPtr.mem_iff,
          List.getD_eq_getElem _ _ (by rwa [subPtr.length_eq, List.length_range])]
        exact List.getElem_mem _
      rw [if_pos (total.symm ▸ below), ← core, Plan.subtaskAt]
      have same := withPriorities_subtask ranking (listed.trans_eq (placed_subtaskTot sort).symm)
      change ((placed.withPriorities ranking).subtask _).core = _
      rw [same]

namespace CalibrateMode

/-- The statements from the entry of the loop body to the store of the result. -/
def Pc.searching : Pc → Bool
  | .setScheduler | .bounds | .whileBounds | .mid | .startT | .subtaskFunc | .endT | .compare | .maxCnt => true
  | _ => false

/-- What a statement of `calibrate` does to its thread. The statements of a search are taken together. -/
inductive Move (plan : Plan) (cur : Thread) : Thread → Write → Prop where
  | begin : cur.pc = .kthread → Move plan cur { cur with pc := .core } .none
  | core : cur.pc = .core → Move plan cur { cur with core := plan.coreAt cur.cur, pc := .setCurrentState } .none
  | mark : cur.pc = .setCurrentState → Move plan cur { cur with pc := .schedule .interruptible } .none
  | sleep : cur.pc = .schedule .interruptible → Move plan cur { cur with pc := .schedule .asleep } .none
  | woken : cur.pc = .schedule .running → Move plan cur { cur with pc := .coreNum } .none
  | empty : cur.pc = .coreNum → cur.core = coreNum → Move plan cur { cur with pc := .exited } .none
  | enter : cur.pc = .coreNum → cur.core ≠ coreNum → Move plan cur { cur with pc := .whileCore } .none
  | work : cur.pc = .whileCore → plan.coreAt cur.cur = cur.core →
      Move plan cur { cur with pc := .setScheduler } .none
  | leave : cur.pc = .whileCore → plan.coreAt cur.cur ≠ cur.core → Move plan cur { cur with pc := .exited } .none
  | search (later : Thread) (write : Write) : cur.pc.searching = true → later.pc.searching = true →
      later.cur = cur.cur → later.core = cur.core → write = .none ∨ (∃ value, write = .probe value) →
      Move plan cur later write
  | final : cur.pc = .maxCnt → Move plan cur { cur with pc := .printk } (.final cur.maxCnt)
  | printk : cur.pc = .printk → Move plan cur { cur with pc := .next } .none
  | next : cur.pc = .next → Move plan cur { cur with cur := cur.cur + 1, pc := .whileCore } .none

/-- A thread works on the positions of its own core, or it has found the sentinel. -/
def Thread.Owns (plan : Plan) (c : Nat) (cur : Thread) : Prop :=
  match cur.pc with
  | .unborn | .exited => True
  | .created | .kthread | .core => cur.cur = plan.startAddr c
  | .setCurrentState | .schedule _ | .coreNum => cur.core = c ∨ cur.core = coreNum
  | .whileCore => cur.core = c
  | _ => cur.core = c ∧ plan.coreAt cur.cur = c

/-- A thread has passed a position when its search there has ended. -/
def Thread.Passed (cur : Thread) (k : Nat) : Prop := k < cur.cur ∨ k = cur.cur ∧ (cur.pc = .printk ∨ cur.pc = .next)

variable {plan : Plan} {c now : Nat} {cur later : Thread} {write : Write}

/-- Each statement is one of these moves. -/
theorem calibrate_move (taken : calibrate plan now cur = some (later, write)) : Move plan cur later write := by
  unfold calibrate at taken
  split at taken <;> simp only [reduceCtorEq, Option.some.injEq, Prod.mk.injEq] at taken <;>
    obtain ⟨rfl, rfl⟩ := taken
  · exact .begin ‹_›
  · exact .core ‹_›
  · exact .mark ‹_›
  · exact .sleep ‹_›
  · exact .woken ‹_›
  · split
    · exact .empty ‹_› ‹_›
    · exact .enter ‹_› ‹_›
  · split
    · exact .work ‹_› ‹_›
    · exact .leave ‹_› ‹_›
  · next pc => exact .search _ _ (pc ▸ rfl) rfl rfl rfl (.inl rfl)
  · next pc => exact .search _ _ (pc ▸ rfl) rfl rfl rfl (.inl rfl)
  · next pc => exact .search _ _ (pc ▸ rfl) (by dsimp only; split <;> rfl) rfl rfl (.inl rfl)
  · next pc => exact .search _ _ (pc ▸ rfl) rfl rfl rfl (.inr ⟨_, rfl⟩)
  · next pc => exact .search _ _ (pc ▸ rfl) rfl rfl rfl (.inl rfl)
  · next pc => exact .search _ _ (pc ▸ rfl) rfl rfl rfl (.inl rfl)
  · next pc => exact .search _ _ (pc ▸ rfl) rfl rfl rfl (.inl rfl)
  · split
    all_goals next pc _ => exact .search _ _ (pc ▸ rfl) rfl rfl rfl (.inl rfl)
  · exact .final ‹_›
  · exact .printk ‹_›
  · exact .next ‹_›

theorem Thread.owns_iff (searching : cur.pc.searching = true) :
    cur.Owns plan c ↔ cur.core = c ∧ plan.coreAt cur.cur = c := by
  unfold Thread.Owns
  cases pc : cur.pc <;> simp_all [Pc.searching]

/-- Each statement keeps a thread on its own core. -/
theorem Move.owns (indexed : plan.Indexed) (owns : cur.Owns plan c) (move : Move plan cur later write) :
    later.Owns plan c := by
  cases move with
  | search later write before after sameCur sameCore _ =>
      rw [Thread.owns_iff before] at owns
      rwa [Thread.owns_iff after, sameCur, sameCore]
  | core pc =>
      rw [Thread.Owns, pc] at owns
      change cur.cur = plan.startAddr c at owns
      change plan.coreAt cur.cur = c ∨ plan.coreAt cur.cur = coreNum
      rw [owns]
      by_cases inside : plan.startAddr c < plan.header.subtaskTot
      · exact .inl (indexed.startAddr c inside)
      · exact .inr (if_neg inside)
  | begin pc | mark pc | sleep pc | woken pc | final pc | printk pc =>
      rw [Thread.Owns, pc] at owns
      exact owns
  | empty | leave => trivial
  | enter pc inside =>
      rw [Thread.Owns, pc] at owns
      exact owns.resolve_right inside
  | work pc same =>
      rw [Thread.Owns, pc] at owns
      exact ⟨owns, same.trans owns⟩
  | next pc =>
      rw [Thread.Owns, pc] at owns
      exact owns.1

/-- A thread does not come back to a position. -/
theorem Move.passed (move : Move plan cur later write) {k : Nat} (passed : cur.Passed k) : later.Passed k := by
  unfold Thread.Passed at passed
  cases move with
  | search later write before after sameCur _ _ =>
      rcases passed with below | ⟨_, pc | pc⟩
      · exact .inl (sameCur ▸ below)
      all_goals rw [pc] at before; contradiction
  | printk pc => exact passed.imp id fun ⟨same, _⟩ => ⟨same, .inr rfl⟩
  | next pc =>
      refine .inl ?_
      change k < cur.cur + 1
      omega
  | begin pc | core pc | mark pc | sleep pc | woken pc | empty pc | enter pc | work pc | leave pc | final pc =>
      refine .inl (passed.resolve_right ?_)
      rw [pc]
      simp

/-- The number of cores whose threads have been created. -/
def InitPc.born : InitPc → Nat
  | .loop i => i
  | .wake i => i + 1
  | .start | .done => coreNum

/-- The threads work on their own subtasks, and a result is where its search has left it. -/
structure Calibrated (plan : Plan) (state : State) : Prop where
  born : state.init.born ≤ coreNum
  unborn : ∀ c, state.init.born ≤ c → state.thread c = {}
  owns : ∀ c, (state.thread c).Owns plan c
  passed : ∀ k < plan.header.subtaskTot, (state.result (plan.subtaskAt k)).isSome →
    (state.thread (plan.coreAt k)).Passed k
  stored : ∀ i value, state.result i = some value → state.loopCount i = value

variable {state next : State}

theorem calibrated_loaded (plan : Plan) (now : Nat) : Calibrated plan (.loaded plan now) where
  born := Nat.zero_le _
  unborn _ _ := rfl
  owns _ := trivial
  passed _ _ some := by simp [State.loaded] at some
  stored _ _ some := by simp [State.loaded] at some

@[simp] theorem set_self (state : State) (c : Nat) (cur : Thread) : (state.set c cur).thread c = cur :=
  Function.update_self _ _ _

theorem set_other (state : State) (cur : Thread) {other c : Nat} (apart : other ≠ c) :
    (state.set c cur).thread other = state.thread other :=
  Function.update_of_ne apart _ _

@[simp] theorem thread_write (state : State) (i : Nat) (write : Write) :
    (state.write i write).thread = state.thread := by
  cases write <;> rfl

/-- A thread step is a move of one thread, with its write to the subtask at the thread's position. -/
theorem step_thread (taken : step plan state (.thread c) = some next) : ∃ later write,
    Move plan (state.thread c) later write ∧
      next = (state.set c later).write (plan.subtaskAt (state.thread c).cur) write := by
  obtain ⟨⟨later, write⟩, statement, rfl⟩ := Option.map_eq_some_iff.mp taken
  exact ⟨later, write, calibrate_move statement, rfl⟩

/-- A thread that writes has not passed its position, which belongs to its core. -/
theorem Calibrated.unwritten (calibrated : Calibrated plan state) (inside : c < coreNum)
    (searching : (state.thread c).pc.searching = true) :
    (state.thread c).cur < plan.header.subtaskTot ∧ plan.coreAt (state.thread c).cur = c ∧
      state.result (plan.subtaskAt (state.thread c).cur) = none := by
  have own := ((Thread.owns_iff searching).mp (calibrated.owns c)).2
  have below := Plan.lt_of_coreAt (own.symm ▸ inside)
  refine ⟨below, own, Option.not_isSome_iff_eq_none.mp fun some => ?_⟩
  have passed := calibrated.passed _ below some
  rw [own] at passed
  rcases passed with less | ⟨_, pc | pc⟩
  · exact Nat.lt_irrefl _ less
  all_goals rw [pc] at searching; contradiction

/-- A thread writes while it searches, and its last write there is the result. -/
theorem Move.write_cases (move : Move plan cur later write) : write = .none ∨
    (cur.pc.searching = true ∧ ∃ value, write = .probe value) ∨
    (cur.pc.searching = true ∧ write = .final cur.maxCnt ∧ later = { cur with pc := .printk }) := by
  cases move with
  | search later write before _ _ _ kind => exact kind.imp id fun probe => .inl ⟨before, probe⟩
  | final pc => exact .inr (.inr ⟨pc ▸ rfl, rfl, rfl⟩)
  | begin | core | mark | sleep | woken | empty | enter | work | leave | printk | next => exact .inl rfl

/-- Only created threads move. -/
theorem Calibrated.lt_coreNum (calibrated : Calibrated plan state) (taken : step plan state (.thread c) = some next) :
    c < state.init.born := by
  by_contra outside
  simp [step, calibrate, calibrated.unborn c (Nat.le_of_not_lt outside)] at taken

/-- A result stays what it is. -/
theorem Calibrated.result_thread (calibrated : Calibrated plan state)
    (taken : step plan state (.thread c) = some next) {i value : Nat} (known : state.result i = some value) :
    next.result i = some value := by
  have inside := (calibrated.lt_coreNum taken).trans_le calibrated.born
  obtain ⟨later, write, move, rfl⟩ := step_thread taken
  rcases move.write_cases with rfl | ⟨_, _, rfl⟩ | ⟨searching, rfl, _⟩
  · exact known
  · exact known
  · have other : i ≠ plan.subtaskAt (state.thread c).cur := by
      rintro rfl
      simp [(calibrated.unwritten inside searching).2.2] at known
    simpa [State.write, State.set, other] using known

theorem calibrated_thread (indexed : plan.Indexed) (calibrated : Calibrated plan state)
    (taken : step plan state (.thread c) = some next) : Calibrated plan next := by
  have created := calibrated.lt_coreNum taken
  have inside := created.trans_le calibrated.born
  obtain ⟨later, write, move, rfl⟩ := step_thread taken
  have kept (k : Nat) (passed : (state.thread (plan.coreAt k)).Passed k) :
      ((state.set c later).thread (plan.coreAt k)).Passed k := by
    by_cases own : plan.coreAt k = c
    · rw [own, set_self]
      exact move.passed (own ▸ passed)
    · rwa [set_other _ _ own]
  have frame : ((state.set c later).write (plan.subtaskAt (state.thread c).cur) write).init = state.init := by
    cases write <;> rfl
  refine ⟨frame ▸ calibrated.born, fun other outside => ?_, fun other => ?_, fun k below some => ?_, ?_⟩
  · rw [frame] at outside
    rw [thread_write, set_other _ _ (by omega)]
    exact calibrated.unborn other outside
  · rw [thread_write]
    by_cases own : other = c
    · rw [own, set_self]
      exact move.owns indexed (calibrated.owns c)
    · rw [set_other _ _ own]
      exact calibrated.owns other
  · rw [thread_write]
    rcases move.write_cases with rfl | ⟨_, _, rfl⟩ | ⟨searching, rfl, stored⟩
    · exact kept k (calibrated.passed k below some)
    · exact kept k (calibrated.passed k below some)
    · by_cases here : plan.subtaskAt k = plan.subtaskAt (state.thread c).cur
      · obtain ⟨within, own, _⟩ := calibrated.unwritten inside searching
        obtain rfl := indexed.subtaskAt_inj below within here
        rw [own, set_self, stored]
        exact .inr ⟨rfl, .inl rfl⟩
      · refine kept k (calibrated.passed k below ?_)
        simpa [State.write, State.set, here] using some
  · intro i value known
    rcases move.write_cases with rfl | ⟨searching, probe, rfl⟩ | ⟨searching, rfl, _⟩
    · exact calibrated.stored i value known
    · have other : i ≠ plan.subtaskAt (state.thread c).cur := by
        rintro rfl
        simp [State.write, State.set, (calibrated.unwritten inside searching).2.2] at known
      simpa [State.write, State.set, other] using calibrated.stored i value known
    · by_cases here : i = plan.subtaskAt (state.thread c).cur
      · subst here
        simpa [State.write, State.set] using known
      · simp only [State.write, State.set, Function.update_of_ne here] at known ⊢
        exact calibrated.stored i value known

/-- A wake-up keeps a thread on its core. -/
theorem Thread.owns_wake (owns : cur.Owns plan c) : Thread.Owns plan c { cur with pc := cur.pc.wake } := by
  unfold Thread.Owns at owns ⊢
  cases pc : cur.pc <;> rw [pc] at owns <;> exact owns

/-- A wake-up keeps a thread at its position. -/
theorem Thread.passed_wake {k : Nat} (passed : cur.Passed k) : Thread.Passed { cur with pc := cur.pc.wake } k :=
  passed.imp id fun ⟨same, searched⟩ => ⟨same, searched.imp (fun pc => by simp [pc, Pc.wake])
    fun pc => by simp [pc, Pc.wake]⟩

theorem wakeUpProcess_thread (state : State) (c other : Nat) :
    (state.wakeUpProcess c).thread other = state.thread other ∨
      (state.wakeUpProcess c).thread other = { state.thread other with pc := (state.thread other).pc.wake } := by
  by_cases own : other = c
  · subst own
    exact .inr (set_self _ _ _)
  · exact .inl (set_other _ _ own)

theorem Calibrated.wakeUpProcess (calibrated : Calibrated plan state) (c : Nat) :
    Calibrated plan (state.wakeUpProcess c) where
  born := calibrated.born
  unborn other outside := by
    rcases wakeUpProcess_thread state c other with same | woken
    · rw [same]
      exact calibrated.unborn other outside
    · rw [woken, calibrated.unborn other outside]
      rfl
  owns other := by
    rcases wakeUpProcess_thread state c other with same | woken
    · rw [same]
      exact calibrated.owns other
    · rw [woken]
      exact Thread.owns_wake (calibrated.owns other)
  passed k below some := by
    rcases wakeUpProcess_thread state c (plan.coreAt k) with same | woken
    · rw [same]
      exact calibrated.passed k below some
    · rw [woken]
      exact Thread.passed_wake (calibrated.passed k below some)
  stored := calibrated.stored

/-- A step that touches neither threads nor results keeps the invariant. -/
theorem Calibrated.frame (calibrated : Calibrated plan state) (thread : next.thread = state.thread)
    (result : next.result = state.result) (loopCount : next.loopCount = state.loopCount)
    (born : next.init.born = state.init.born) : Calibrated plan next := by
  refine ⟨?_, ?_, ?_, ?_, ?_⟩ <;> simp only [thread, result, loopCount, born]
  exacts [calibrated.born, calibrated.unborn, calibrated.owns, calibrated.passed, calibrated.stored]

/-- What a step of `E2E_init` does. -/
theorem step_init (taken : step plan state .init = some next) :
    (∃ i, state.init = .loop i ∧ i < coreNum ∧
      next = { state with init := .wake i }.set i { pc := .created, cur := plan.startAddr i }) ∨
    (∃ i, state.init = .loop i ∧ ¬ i < coreNum ∧ next = { state with init := .start }) ∨
    (∃ i, state.init = .wake i ∧ next = { state with init := .loop (i + 1) }.wakeUpProcess i) ∨
    (state.init = .start ∧ next = { state with calTimer := .armed (state.now + 100000000), init := .done }) := by
  simp only [step, initStep] at taken
  split at taken
  · split at taken
    · exact .inl ⟨_, ‹_›, ‹_›, (Option.some.inj taken).symm⟩
    · exact .inr (.inl ⟨_, ‹_›, ‹_›, (Option.some.inj taken).symm⟩)
  · exact .inr (.inr (.inl ⟨_, ‹_›, (Option.some.inj taken).symm⟩))
  · exact .inr (.inr (.inr ⟨‹_›, (Option.some.inj taken).symm⟩))
  · contradiction

theorem calibrated_init (calibrated : Calibrated plan state) (taken : step plan state .init = some next) :
    Calibrated plan next := by
  rcases step_init taken with ⟨i, position, more, rfl⟩ | ⟨i, position, all, rfl⟩ | ⟨i, position, rfl⟩ |
    ⟨position, rfl⟩
  · have fresh := calibrated.unborn i (by rw [position]; exact Nat.le_refl i)
    refine ⟨more, fun other outside => ?_, fun other => ?_, fun k below some => ?_, calibrated.stored⟩
    · rw [set_other _ _ (Nat.ne_of_gt outside)]
      exact calibrated.unborn other (by rw [position]; exact Nat.le_of_succ_le outside)
    · by_cases own : other = i
      · rw [own, set_self]
        exact rfl
      · rw [set_other _ _ own]
        exact calibrated.owns other
    · -- a thread that does not exist has passed nothing
      have passed := calibrated.passed k below some
      by_cases own : plan.coreAt k = i
      · rw [own, fresh] at passed
        simp [Thread.Passed] at passed
      · rwa [set_other _ _ own]
  · have last : i = coreNum := by
      have born := calibrated.born
      rw [position] at born
      exact Nat.le_antisymm born (Nat.le_of_not_lt all)
    exact calibrated.frame rfl rfl rfl (by rw [position, last]; rfl)
  · have moved : Calibrated plan { state with init := .loop (i + 1) } :=
      calibrated.frame rfl rfl rfl (by rw [position]; rfl)
    exact moved.wakeUpProcess i
  · exact calibrated.frame rfl rfl rfl (by rw [position]; rfl)

/-- What a step of the start timer's handler does. -/
theorem step_cal (taken : step plan state .cal = some next) :
    (∃ expiry, state.calTimer = .armed expiry ∧ next = { state with calTimer := .running 0 }) ∨
    (∃ k, state.calTimer = .running k ∧ k < coreNum ∧
      next = { state with calTimer := .running (k + 1) }.wakeUpProcess k) ∨
    (∃ k, state.calTimer = .running k ∧ ¬ k < coreNum ∧ next = { state with calTimer := .done }) := by
  simp only [step, calStep] at taken
  split at taken
  · contradiction
  · contradiction
  · split at taken
    · exact .inl ⟨_, ‹_›, (Option.some.inj taken).symm⟩
    · contradiction
  · split at taken
    · exact .inr (.inl ⟨_, ‹_›, ‹_›, (Option.some.inj taken).symm⟩)
    · exact .inr (.inr ⟨_, ‹_›, ‹_›, (Option.some.inj taken).symm⟩)

theorem calibrated_cal (calibrated : Calibrated plan state) (taken : step plan state .cal = some next) :
    Calibrated plan next := by
  rcases step_cal taken with ⟨_, _, rfl⟩ | ⟨k, _, _, rfl⟩ | ⟨_, _, _, rfl⟩
  · exact calibrated.frame rfl rfl rfl rfl
  · have moved : Calibrated plan { state with calTimer := .running (k + 1) } := calibrated.frame rfl rfl rfl rfl
    exact moved.wakeUpProcess k
  · exact calibrated.frame rfl rfl rfl rfl

/-- What a step of the unload does. -/
theorem step_exit (taken : step plan state .exit = some next) :
    (state.exit = .notStarted ∧ state.init = .done ∧ next = { state with exit := .tasks 0 }) ∨
    (∃ k, state.exit = .tasks k ∧ next = { state with
      lines := state.lines ++ [.task k (plan.header.task k)], exit := .tasks (k + 1) }) ∨
    (∃ k, state.exit = .tasks k ∧ next = { state with exit := .subtasks 0 }) ∨
    (∃ i, state.exit = .subtasks i ∧ i < plan.header.subtaskTot ∧ next = { state with
      lines := state.lines ++ [.subtask i (state.subtask plan i)], exit := .subtasks (i + 1) }) ∨
    (∃ i, state.exit = .subtasks i ∧ ¬ i < plan.header.subtaskTot ∧
      next = { state with exit := .kfreeSentinel }) ∨
    (state.exit = .kfreeSentinel ∧ next = { state with exit := .kfreeSubPtr }) ∨
    (state.exit = .kfreeSubPtr ∧ next = { state with exit := .cancelCal }) ∨
    (state.exit = .cancelCal ∧ next = { state with calTimer := .off, exit := .returned }) := by
  simp only [step, exitStep] at taken
  split at taken
  · split at taken
    · exact .inl ⟨‹_›, ‹_›, (Option.some.inj taken).symm⟩
    · contradiction
  · split at taken
    · exact .inr (.inl ⟨_, ‹_›, (Option.some.inj taken).symm⟩)
    · exact .inr (.inr (.inl ⟨_, ‹_›, (Option.some.inj taken).symm⟩))
  · split at taken
    · exact .inr (.inr (.inr (.inl ⟨_, ‹_›, ‹_›, (Option.some.inj taken).symm⟩)))
    · exact .inr (.inr (.inr (.inr (.inl ⟨_, ‹_›, ‹_›, (Option.some.inj taken).symm⟩))))
  · exact .inr (.inr (.inr (.inr (.inr (.inl ⟨‹_›, (Option.some.inj taken).symm⟩)))))
  · exact .inr (.inr (.inr (.inr (.inr (.inr (.inl ⟨‹_›, (Option.some.inj taken).symm⟩))))))
  · split at taken
    · contradiction
    · exact .inr (.inr (.inr (.inr (.inr (.inr (.inr ⟨‹_›, (Option.some.inj taken).symm⟩))))))
  · contradiction

theorem calibrated_exit (calibrated : Calibrated plan state) (taken : step plan state .exit = some next) :
    Calibrated plan next := by
  rcases step_exit taken with ⟨position, loaded, rfl⟩ | ⟨k, position, rfl⟩ | ⟨k, position, rfl⟩ |
    ⟨i, position, _, rfl⟩ | ⟨i, position, _, rfl⟩ | ⟨position, rfl⟩ | ⟨position, rfl⟩ | ⟨position, rfl⟩
  all_goals exact calibrated.frame rfl rfl rfl rfl

/-- The module, the start timer and time store no result. They leave a thread alone, wake it or create it. -/
theorem step_threads {event : Event} (taken : step plan state event = some next) (other : ∀ c, event ≠ .thread c) :
    next.result = state.result ∧ ∀ c, next.thread c = state.thread c ∨
      next.thread c = { state.thread c with pc := (state.thread c).pc.wake } ∨
      state.init = .loop c ∧ next.thread c = { pc := .created, cur := plan.startAddr c } := by
  cases event with
  | thread c => exact absurd rfl (other c)
  | tick duration =>
      obtain rfl := Option.some.inj taken
      exact ⟨rfl, fun _ => .inl rfl⟩
  | exit =>
      rcases step_exit taken with ⟨_, _, rfl⟩ | ⟨_, _, rfl⟩ | ⟨_, _, rfl⟩ | ⟨_, _, _, rfl⟩ | ⟨_, _, _, rfl⟩ |
        ⟨_, rfl⟩ | ⟨_, rfl⟩ | ⟨_, rfl⟩
      all_goals exact ⟨rfl, fun _ => .inl rfl⟩
  | cal =>
      rcases step_cal taken with ⟨_, _, rfl⟩ | ⟨k, _, _, rfl⟩ | ⟨_, _, _, rfl⟩
      · exact ⟨rfl, fun _ => .inl rfl⟩
      · refine ⟨rfl, fun c => ?_⟩
        rcases wakeUpProcess_thread { state with calTimer := .running (k + 1) } k c with same | woken
        · exact .inl same
        · exact .inr (.inl woken)
      · exact ⟨rfl, fun _ => .inl rfl⟩
  | init =>
      rcases step_init taken with ⟨i, position, _, rfl⟩ | ⟨_, _, _, rfl⟩ | ⟨i, _, rfl⟩ | ⟨_, rfl⟩
      · refine ⟨rfl, fun c => ?_⟩
        by_cases own : c = i
        · subst own
          exact .inr (.inr ⟨position, set_self _ _ _⟩)
        · exact .inl (set_other _ _ own)
      · exact ⟨rfl, fun _ => .inl rfl⟩
      · refine ⟨rfl, fun c => ?_⟩
        rcases wakeUpProcess_thread { state with init := .loop (i + 1) } i c with same | woken
        · exact .inl same
        · exact .inr (.inl woken)
      · exact ⟨rfl, fun _ => .inl rfl⟩

/-- The invariant holds in each run. -/
theorem calibrated_reached {guard : Guard State Event} (indexed : plan.Indexed)
    (reached : plan.calibrateMode.Reaches guard state) : Calibrated plan state := by
  refine reached.invariant (Calibrated plan) ?_ ?_
  · rintro _ ⟨now, rfl⟩
    exact calibrated_loaded plan now
  · intro current event following _ calibrated _ taken
    cases event with
    | init => exact calibrated_init calibrated taken
    | exit => exact calibrated_exit calibrated taken
    | cal => exact calibrated_cal calibrated taken
    | thread c => exact calibrated_thread indexed calibrated taken
    | tick duration =>
        obtain rfl := Option.some.inj taken
        exact calibrated.frame rfl rfl rfl rfl

theorem write_frame (state : State) (i : Nat) (write : Write) :
    (state.write i write).init = state.init ∧ (state.write i write).exit = state.exit ∧
      (state.write i write).calTimer = state.calTimer ∧ (state.write i write).lines = state.lines := by
  cases write <;> exact ⟨rfl, rfl, rfl, rfl⟩

/-- The unload starts after the end of `E2E_init`. -/
theorem init_before_exit (loaded : state.exit ≠ .notStarted → state.init = .done)
    (taken : step plan state .init = some next) : state.exit = .notStarted := by
  by_contra other
  simp [step, initStep, loaded other] at taken

/-- The number of cores whose threads `E2E_init` has woken. -/
def InitPc.woken : InitPc → Nat
  | .loop i | .wake i => i
  | .start | .done => coreNum

/-- The unload meets only threads that `E2E_init` has woken. -/
structure Started (state : State) : Prop where
  loaded : state.exit ≠ .notStarted → state.init = .done
  born : ∀ c < state.init.born, (state.thread c).pc ≠ .unborn
  woken : ∀ c < state.init.woken, (state.thread c).pc ≠ .created

theorem Pc.wake_unborn {pc : Pc} : pc.wake = .unborn ↔ pc = .unborn := by
  cases pc <;> simp [wake]

theorem Pc.wake_created (pc : Pc) : pc.wake ≠ .created := by
  cases pc <;> simp [wake]

theorem Started.wakeUpProcess (started : Started state) (c : Nat) : Started (state.wakeUpProcess c) where
  loaded := started.loaded
  born other created := by
    rcases wakeUpProcess_thread state c other with same | woken
    · rw [same]
      exact started.born other created
    · rw [woken]
      exact fun unborn => started.born other created (Pc.wake_unborn.mp unborn)
  woken other inside := by
    rcases wakeUpProcess_thread state c other with same | woken
    · rw [same]
      exact started.woken other inside
    · rw [woken]
      exact Pc.wake_created _

theorem started_init (started : Started state) (taken : step plan state .init = some next) : Started next := by
  have before := init_before_exit started.loaded taken
  have born := started.born
  have woken := started.woken
  rcases step_init taken with ⟨i, position, _, rfl⟩ | ⟨i, position, all, rfl⟩ | ⟨i, position, rfl⟩ |
    ⟨position, rfl⟩
  all_goals rw [position] at born woken
  · refine ⟨(absurd before ·), fun c created => ?_, fun c inside => ?_⟩
    · rcases Nat.lt_succ_iff_lt_or_eq.mp created with less | rfl
      · rw [set_other _ _ (Nat.ne_of_lt less)]
        exact born c less
      · rw [set_self]
        exact Pc.noConfusion
    · have apart : c ≠ i := Nat.ne_of_lt inside
      rw [set_other _ _ apart]
      exact woken c inside
  · have all := Nat.le_of_not_lt all
    exact ⟨(absurd before ·), fun c inside => born c (inside.trans_le all),
      fun c inside => woken c (inside.trans_le all)⟩
  · refine ⟨(absurd before ·), fun c created => ?_, fun c inside => ?_⟩
    · rcases wakeUpProcess_thread { state with init := .loop (i + 1) } i c with same | changed
      · rw [same]
        exact born c created
      · rw [changed]
        exact fun unborn => born c created (Pc.wake_unborn.mp unborn)
    · rcases Nat.lt_succ_iff_lt_or_eq.mp inside with less | rfl
      · rw [State.wakeUpProcess, set_other _ _ (Nat.ne_of_lt less)]
        exact woken c less
      · rw [State.wakeUpProcess, set_self]
        exact Pc.wake_created _
  · exact ⟨(absurd before ·), born, woken⟩

theorem Move.started (move : Move plan cur later write) : later.pc ≠ .unborn ∧ later.pc ≠ .created := by
  cases move with
  | search later write _ after _ _ _ =>
      constructor <;> rintro pc <;> rw [pc] at after <;> contradiction
  | begin | core | mark | sleep | woken | empty | enter | work | leave | final | printk | next => simp

/-- Each run keeps the order of the load and the unload. -/
theorem started_reached {guard : Guard State Event} (reached : plan.calibrateMode.Reaches guard state) :
    Started state := by
  refine reached.invariant Started ?_ ?_
  · rintro _ ⟨now, rfl⟩
    exact ⟨(absurd rfl ·), fun c created => absurd created (Nat.not_lt_zero c),
      fun c inside => absurd inside (Nat.not_lt_zero c)⟩
  · intro current event following _ started _ taken
    change step plan current event = some following at taken
    cases event with
    | init => exact started_init started taken
    | exit =>
        rcases step_exit taken with ⟨_, loaded, rfl⟩ | ⟨k, position, rfl⟩ | ⟨k, position, rfl⟩ |
          ⟨i, position, _, rfl⟩ | ⟨i, position, _, rfl⟩ | ⟨position, rfl⟩ | ⟨position, rfl⟩ | ⟨position, rfl⟩
        · exact ⟨fun _ => loaded, started.born, started.woken⟩
        all_goals exact ⟨fun _ => started.loaded (by simp [position]), started.born, started.woken⟩
    | cal =>
        rcases step_cal taken with ⟨expiry, _, rfl⟩ | ⟨k, _, _, rfl⟩ | ⟨k, _, _, rfl⟩
        · exact ⟨started.loaded, started.born, started.woken⟩
        · have moved : Started { current with calTimer := .running (k + 1) } :=
            ⟨started.loaded, started.born, started.woken⟩
          exact moved.wakeUpProcess k
        · exact ⟨started.loaded, started.born, started.woken⟩
    | tick duration =>
        obtain rfl := Option.some.inj taken
        exact ⟨started.loaded, started.born, started.woken⟩
    | thread c =>
        obtain ⟨later, write, move, rfl⟩ := step_thread taken
        obtain ⟨init, exit, _⟩ := write_frame (current.set c later) (plan.subtaskAt (current.thread c).cur) write
        refine ⟨?_, fun other created => ?_, fun other inside => ?_⟩
        · rw [exit, init]
          exact started.loaded
        · rw [init] at created
          by_cases own : other = c
          · rw [thread_write, own, set_self]
            exact move.started.1
          · rw [thread_write, set_other _ _ own]
            exact started.born other created
        · rw [init] at inside
          by_cases own : other = c
          · rw [thread_write, own, set_self]
            exact move.started.2
          · rw [thread_write, set_other _ _ own]
            exact started.woken other inside

end CalibrateMode

end KernelStudio.EndToEnd
