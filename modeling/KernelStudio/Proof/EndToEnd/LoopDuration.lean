/-
This file proves which calibrated loops last as long as requested.
The target is a product of words, so the requests that fail are those whose product wraps.
-/

import KernelStudio.Proof.EndToEnd.LoopCount

namespace KernelStudio.EndToEnd

open Transition

section Rounds

variable (target : Nat) (duration : Nat → Int)

theorem timedSearch_succ (rounds : Nat) :
    timedSearch target duration (rounds + 1) = (timedSearch target duration rounds).round target duration :=
  Function.iterate_succ_apply' _ _ _

/-- A round keeps measurements that are durations of their counts. -/
theorem LoopSearch.round_honest {search : LoopSearch}
    (honest : ∀ probe ∈ search.measured, probe.2 = duration probe.1) :
    ∀ probe ∈ (search.round target duration).measured, probe.2 = duration probe.1 := by
  intro probe listed
  unfold LoopSearch.round LoopSearch.measure at listed
  split_ifs at listed
  · rcases List.mem_append.1 listed with earlier | last
    · exact honest probe earlier
    · rw [List.mem_singleton.1 last]
  · rcases List.mem_append.1 listed with earlier | last
    · exact honest probe earlier
    · rw [List.mem_singleton.1 last]
  · exact honest probe listed

/-- The rounds are a search whose measurements are the durations of their counts. -/
theorem timedSearch_durations (rounds : Nat) :
    (∃ durations, durations.length = rounds ∧ timedSearch target duration rounds = loopSearch target durations) ∧
      ∀ probe ∈ (timedSearch target duration rounds).measured, probe.2 = duration probe.1 := by
  induction rounds with
  | zero => exact ⟨⟨[], rfl, rfl⟩, by simp [timedSearch]⟩
  | succ rounds inductionHypothesis =>
      obtain ⟨⟨durations, length, same⟩, honest⟩ := inductionHypothesis
      let search := timedSearch target duration rounds
      let mid := u32 (search.minCnt + search.maxCnt) >>> 1
      rw [timedSearch_succ]
      refine ⟨⟨durations ++ [duration mid], ?_, ?_⟩, LoopSearch.round_honest target duration honest⟩
      · rw [List.length_append, length, List.length_singleton]
      · rw [loopSearch, List.foldl_append, ← loopSearch, ← same]
        rfl

/-- The inner loop has ended after 27 rounds. -/
theorem timedSearch_ended : (timedSearch target duration 27).Ended := by
  obtain ⟨⟨durations, length, same⟩, _⟩ := timedSearch_durations target duration 27
  exact same ▸ loopSearch_ended target length.ge

/-- An ended search has the bound that every further search with the same durations ends with. -/
theorem timedSearch_later {rounds : Nat} (ended : (timedSearch target duration rounds).Ended) (more : Nat) :
    timedSearch target duration (rounds + more) = timedSearch target duration rounds := by
  induction more with
  | zero => rfl
  | succ more inductionHypothesis =>
      rw [← Nat.add_assoc, timedSearch_succ, inductionHypothesis]
      exact if_neg ended

end Rounds

/-- If a count reaches the target, the stored count is the least one. -/
theorem storedCount_least {exeTime count : Nat} {duration : Nat → Int} (monotone : Monotone duration)
    (below : count < 100000000)
    (enough : (targetNs exeTime : Int) ≤ duration count) :
    IsLeast {count | (targetNs exeTime : Int) ≤ duration count} (storedCount exeTime duration) := by
  obtain ⟨⟨durations, _, same⟩, honest⟩ := timedSearch_durations (targetNs exeTime) duration 27
  have exact := same ▸ loopSearch_exact (targetNs exeTime) durations
  have least := exact.least (timedSearch_ended _ _) duration monotone honest
  have reachable : storedCount exeTime duration ≤ count := by
    by_contra later
    have short := least.2 count (Nat.lt_of_not_le later)
    omega
  exact least.1 (reachable.trans_lt below)

/-- The loop with the stored count takes at least the requested number of milliseconds. -/
def Lasts (exeTime : Nat) (duration : Nat → Int) : Prop :=
  (exeTime : Int) * 1000000 ≤ duration (storedCount exeTime duration)

/-- A count below the bound of the search takes the requested number of milliseconds. -/
def Attainable (exeTime : Nat) (duration : Nat → Int) : Prop :=
  ∃ count < 100000000, (exeTime : Int) * 1000000 ≤ duration count

theorem targetNs_le (exeTime : Nat) : (targetNs exeTime : Int) ≤ (exeTime : Int) * 1000000 := by
  have le : targetNs exeTime ≤ exeTime * 1000000 := Nat.mod_le _ _
  omega

theorem targetNs_exact {exeTime : Nat} (fits : exeTime * 1000000 < 2 ^ 32) :
    (targetNs exeTime : Int) = (exeTime : Int) * 1000000 := by
  rw [targetNs, u32_of_lt fits]
  push_cast
  rfl

/-- A calibrated loop lasts as long as requested exactly when the product does not wrap or no loop count lies between
the wrapped product and the request. All monotone durations allow this exactly when the product does not wrap. -/
theorem lasts_iff (exeTime : Nat) :
    (∀ duration, Monotone duration → Attainable exeTime duration → (Lasts exeTime duration ↔
      exeTime * 1000000 < 2 ^ 32 ∨
        ∀ count < 100000000, (targetNs exeTime : Int) ≤ duration count → (exeTime : Int) * 1000000 ≤ duration count)) ∧
    ((∀ duration, Monotone duration → Attainable exeTime duration → Lasts exeTime duration) ↔
      exeTime * 1000000 < 2 ^ 32) := by
  have single : ∀ duration, Monotone duration → Attainable exeTime duration → (Lasts exeTime duration ↔
      exeTime * 1000000 < 2 ^ 32 ∨ ∀ count < 100000000, (targetNs exeTime : Int) ≤ duration count →
        (exeTime : Int) * 1000000 ≤ duration count) := by
    rintro duration monotone ⟨attained, below, takes⟩
    have least := storedCount_least monotone below ((targetNs_le exeTime).trans takes)
    have early : storedCount exeTime duration < 100000000 :=
      (least.2 ((targetNs_le exeTime).trans takes)).trans_lt below
    constructor
    · exact fun lasts => .inr fun count _ reaches => lasts.trans (monotone (least.2 reaches))
    · rintro (fits | gap)
      · exact (targetNs_exact fits).symm.trans_le least.1
      · exact gap _ early least.1
  refine ⟨single, fun lasts => ?_, fun fits duration monotone attainable =>
    (single duration monotone attainable).2 (.inl fits)⟩
  by_contra wraps
  -- the count zero takes the wrapped product, and every other count the request
  let duration (count : Nat) : Int := if count = 0 then targetNs exeTime else exeTime * 1000000
  have shorter : (targetNs exeTime : Int) < (exeTime : Int) * 1000000 := by
    have bound : targetNs exeTime < 2 ^ 32 := Nat.mod_lt _ (by decide)
    omega
  have monotone : Monotone duration := by
    intro count larger grows
    by_cases zero : larger = 0
    · rw [show count = larger by omega]
    · show duration count ≤ duration larger
      simp only [duration, if_neg zero]
      split_ifs
      · exact shorter.le
      · exact le_refl _
  have attainable : Attainable exeTime duration := ⟨1, by decide, le_refl _⟩
  have gap := ((single duration monotone attainable).1 (lasts duration monotone attainable)).resolve_left wraps
  exact absurd (gap 0 (by decide) (le_refl _)) (not_le.2 shorter)

/-- A request of 4295 ms is a target of 32704 ns, so a loop of 100 ns a round stops after 328 of them. -/
theorem long_request_cut_short :
    ¬ ∀ exeTime < 2 ^ 32, ∀ duration, Monotone duration → Attainable exeTime duration → Lasts exeTime duration := by
  intro lasts
  have monotone : Monotone fun count : Nat => (count : Int) * 100 := fun count larger grows =>
    Int.mul_le_mul_of_nonneg_right (Int.ofNat_le.2 grows) (by decide)
  have attainable : Attainable 4295 fun count => (count : Int) * 100 := ⟨42950000, by decide, by decide⟩
  have long := lasts 4295 (by decide) _ monotone attainable
  have stored : storedCount 4295 (fun count => (count : Int) * 100) = 328 := by decide +kernel
  rw [Lasts, stored] at long
  exact absurd long (by decide)

namespace CalibrateMode

variable {plan : Plan} {duration : Nat → Nat → Int} {cur later : Thread} {write : Write} {now : Nat}
  {state next : State}

/-- Each measurement is the duration of its subtask with the count of the round. -/
def HonestClock (plan : Plan) (duration : Nat → Nat → Int) : Guard State Event := fun state event =>
  ∀ c, event = .thread c → (state.thread c).pc = .compare →
    ((state.thread c).endT : Int) - (state.thread c).startT =
      duration (plan.subtaskAt (state.thread c).cur) (state.thread c).mid

/-- The bounds of a thread are those of some rounds with these durations. -/
def Thread.TimedBounds (plan : Plan) (duration : Nat → Nat → Int) (cur : Thread) : Prop :=
  ∃ rounds, (timedSearch (plan.target cur.cur) (duration (plan.subtaskAt cur.cur)) rounds).minCnt = cur.minCnt ∧
    (timedSearch (plan.target cur.cur) (duration (plan.subtaskAt cur.cur)) rounds).maxCnt = cur.maxCnt

/-- The positions of the inner loop. -/
def Pc.searches : Pc → Bool
  | .whileBounds | .mid | .startT | .subtaskFunc | .endT | .compare | .maxCnt => true
  | _ => false

/-- A thread in the inner loop has bounds of these durations. -/
def Thread.Timed (plan : Plan) (duration : Nat → Nat → Int) (cur : Thread) : Prop :=
  cur.pc.searches = true → cur.TimedBounds plan duration

theorem Thread.timed_outside (outside : cur.pc.searches = false) : cur.Timed plan duration :=
  fun inside => absurd (outside.symm.trans inside) (by decide)

theorem Thread.timed_wake (timed : cur.Timed plan duration) :
    Thread.Timed plan duration { cur with pc := cur.pc.wake } := by
  unfold Thread.Timed at timed ⊢
  cases pc : cur.pc <;> rw [pc] at timed <;> exact timed

/-- A comparison is a round with the duration of the probed count. -/
theorem Thread.TimedBounds.compare (bounds : cur.TimedBounds plan duration) (isOpen : cur.minCnt < cur.maxCnt)
    (mid : cur.mid = u32 (cur.minCnt + cur.maxCnt) >>> 1)
    (honest : (cur.endT : Int) - cur.startT = duration (plan.subtaskAt cur.cur) cur.mid) :
    Thread.TimedBounds plan duration (if cur.startT + plan.target cur.cur ≤ cur.endT
      then { cur with maxCnt := cur.mid, pc := .whileBounds }
      else { cur with minCnt := u32 (cur.mid + 1), pc := .whileBounds }) := by
  obtain ⟨rounds, lower, upper⟩ := bounds
  have reached : duration (plan.subtaskAt cur.cur) cur.mid ≥ plan.target cur.cur ↔
      cur.startT + plan.target cur.cur ≤ cur.endT := by omega
  unfold Thread.TimedBounds
  split
  next enough =>
    refine ⟨rounds + 1, ?_⟩
    simp only [timedSearch_succ, LoopSearch.round, LoopSearch.measure, lower, upper, isOpen, if_true, ← mid,
      reached.mpr enough, and_self]
  next short =>
    refine ⟨rounds + 1, ?_⟩
    simp only [timedSearch_succ, LoopSearch.round, LoopSearch.measure, lower, upper, isOpen, if_true, ← mid,
      mt reached.mp short, if_false, and_self]

/-- Each statement of a thread keeps its timed bounds, provided that its measurement is honest. -/
theorem calibrate_timed (searches : cur.Searches plan) (timed : cur.Timed plan duration)
    (honest : cur.pc = .compare → (cur.endT : Int) - cur.startT = duration (plan.subtaskAt cur.cur) cur.mid)
    (taken : calibrate plan now cur = some (later, write)) : later.Timed plan duration := by
  unfold calibrate at taken
  split at taken <;> simp only [reduceCtorEq, Option.some.injEq, Prod.mk.injEq] at taken <;>
    obtain ⟨rfl, rfl⟩ := taken
  · exact Thread.timed_outside rfl
  · exact Thread.timed_outside rfl
  · exact Thread.timed_outside rfl
  · exact Thread.timed_outside rfl
  · exact Thread.timed_outside rfl
  · apply Thread.timed_outside
    dsimp only
    split_ifs <;> rfl
  · apply Thread.timed_outside
    dsimp only
    split_ifs <;> rfl
  · exact Thread.timed_outside rfl
  · exact fun _ => ⟨0, rfl, rfl⟩
  · next pc => exact fun _ => timed (by rw [pc]; rfl)
  · next pc => exact fun _ => timed (by rw [pc]; rfl)
  · next pc => exact fun _ => timed (by rw [pc]; rfl)
  · next pc => exact fun _ => timed (by rw [pc]; rfl)
  · next pc => exact fun _ => timed (by rw [pc]; rfl)
  · next pc =>
      have bounds := timed (by rw [pc]; rfl)
      rw [Thread.Searches, pc] at searches
      obtain ⟨isOpen, mid, _⟩ := searches
      exact fun _ => bounds.compare isOpen mid (honest pc)
  · exact Thread.timed_outside rfl
  · exact Thread.timed_outside rfl
  · exact Thread.timed_outside rfl

/-- A thread stores the count of a search with these durations. -/
theorem calibrate_stores {value : Nat} (searches : cur.Searches plan) (timed : cur.Timed plan duration)
    (taken : calibrate plan now cur = some (later, .final value)) :
    value = storedCount (plan.header.subtask (plan.subtaskAt cur.cur)).exeTime
      (duration (plan.subtaskAt cur.cur)) := by
  unfold calibrate at taken
  split at taken <;> simp only [reduceCtorEq, Option.some.injEq, Prod.mk.injEq, and_false, Write.final.injEq] at taken
  next pc =>
    obtain ⟨rounds, lower, upper⟩ := timed (by rw [pc]; rfl)
    rw [Thread.Searches, pc] at searches
    have ended : (timedSearch (plan.target cur.cur) (duration (plan.subtaskAt cur.cur)) rounds).Ended := by
      rw [LoopSearch.Ended, lower, upper]
      exact searches.1
    have later := timedSearch_later _ _ ended 27
    have whole := timedSearch_later _ _ (timedSearch_ended (plan.target cur.cur) (duration (plan.subtaskAt cur.cur)))
      rounds
    rw [← taken.2, ← upper, ← later, Nat.add_comm, whole]
    rfl

/-- Each thread has bounds of these durations, and each result is the count of a search with them. -/
structure Measured (plan : Plan) (duration : Nat → Nat → Int) (state : State) : Prop where
  threads : ∀ c, (state.thread c).Timed plan duration
  results : ∀ i value, state.result i = some value →
    value = storedCount (plan.header.subtask i).exeTime (duration i)

theorem measured_thread {c : Nat} (searched : Searched plan state) (measured : Measured plan duration state)
    (honest : HonestClock plan duration state (.thread c)) (taken : step plan state (.thread c) = some next) :
    Measured plan duration next := by
  obtain ⟨⟨later, write⟩, statement, rfl⟩ := Option.map_eq_some_iff.mp taken
  refine ⟨fun other => ?_, fun i value known => ?_⟩
  · rw [thread_write]
    by_cases own : other = c
    · rw [own, set_self]
      exact calibrate_timed (searched.threads c) (measured.threads c) (honest c rfl) statement
    · rw [set_other _ _ own]
      exact measured.threads other
  · cases write with
    | none | probe _ => exact measured.results i value known
    | final stored =>
        by_cases here : i = plan.subtaskAt (state.thread c).cur
        · subst here
          simp only [State.write, Function.update_self, Option.some.injEq] at known
          exact calibrate_stores (searched.threads c) (measured.threads c) (known ▸ statement)
        · simp only [State.write, Function.update_of_ne here] at known
          exact measured.results i value known

/-- In each run with an honest clock, each stored loop count is that of the inner loop. -/
theorem result_timed (reached : plan.calibrateMode.Reaches (HonestClock plan duration) state) {i value : Nat}
    (stored : state.result i = some value) :
    value = storedCount (plan.header.subtask i).exeTime (duration i) := by
  have measured : Measured plan duration state := by
    refine reached.invariant (Measured plan duration) ?_ ?_
    · rintro _ ⟨now, rfl⟩
      exact ⟨fun _ => Thread.timed_outside rfl, fun _ _ none => nomatch none⟩
    · intro current event following before measured honest taken
      change step plan current event = some following at taken
      by_cases own : ∃ c, event = .thread c
      · obtain ⟨c, rfl⟩ := own
        exact measured_thread (searched_reached before) measured honest taken
      · obtain ⟨result, threads⟩ := step_threads taken fun c same => own ⟨c, same⟩
        refine ⟨fun c => ?_, fun i value known => measured.results i value (result ▸ known)⟩
        rcases threads c with same | woken | ⟨_, created⟩
        · rw [same]
          exact measured.threads c
        · rw [woken]
          exact Thread.timed_wake (measured.threads c)
        · rw [created]
          exact Thread.timed_outside rfl
  exact measured.results i value stored

end CalibrateMode

end KernelStudio.EndToEnd
