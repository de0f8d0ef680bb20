/-
This file gives bisection over answers that need not be consistent with an order.
Each bound of the search is a limit of the range or a position with its answer.
-/

import Mathlib.Data.List.Induction
import Mathlib.Data.List.Nodup
import Mathlib.Order.Bounds.Basic
import Mathlib.Tactic.Ring

namespace KernelStudio.Bisection

/-- A search keeps the bounds of the open interval and the positions it has asked about, with the answers. -/
structure Search (Answer : Type) where
  lower : Nat
  upper : Nat
  probes : List (Nat × Answer)

variable {Answer : Type} (high : Answer → Bool)

def Search.mid (search : Search Answer) : Nat := (search.lower + search.upper) / 2

/-- An open search uses one answer for its midpoint. -/
def Search.step (search : Search Answer) (answer : Answer) : Search Answer :=
  if search.lower < search.upper then
    let probes := search.probes ++ [(search.mid, answer)]
    if high answer then { search with upper := search.mid, probes }
    else { search with lower := search.mid + 1, probes }
  else search

/-- The search below a limit uses the answers from left to right. -/
def search (limit : Nat) (answers : List Answer) : Search Answer :=
  answers.foldl (Search.step high) { lower := 0, upper := limit, probes := [] }

/-- The bounds are limits of the range or positions with their answers, and no position is asked for twice. -/
structure Search.Sound (limit : Nat) (search : Search Answer) : Prop where
  ordered : search.lower ≤ search.upper
  bounded : search.upper ≤ limit
  upper : search.upper < limit → ∃ answer, (search.upper, answer) ∈ search.probes ∧ high answer = true
  lower : 0 < search.lower → ∃ answer, (search.lower - 1, answer) ∈ search.probes ∧ high answer = false
  outside : ∀ probe ∈ search.probes, probe.1 < limit ∧ (probe.1 < search.lower ∨ search.upper ≤ probe.1)
  distinct : (search.probes.map Prod.fst).Nodup
  halved : (search.upper - search.lower) * 2 ^ search.probes.length ≤ limit

variable {high} {limit : Nat} {current : Search Answer} {answer : Answer}

/-- A midpoint has not been asked for. -/
theorem Search.Sound.fresh (sound : current.Sound high limit) (isOpen : current.lower < current.upper) :
    (current.probes.map Prod.fst ++ [current.mid]).Nodup := by
  refine List.nodup_append.mpr ⟨sound.distinct, List.nodup_singleton _, fun position known other same => ?_⟩
  obtain ⟨probe, listed, rfl⟩ := List.mem_map.mp known
  obtain rfl := List.mem_singleton.mp same
  rintro middle
  have place := (sound.outside probe listed).2
  rw [middle, Search.mid] at place
  omega

/-- A halved interval pays for one more answer. -/
theorem Search.Sound.pay (sound : current.Sound high limit) {width : Nat}
    (half : 2 * width ≤ current.upper - current.lower) : width * 2 ^ (current.probes.length + 1) ≤ limit :=
  calc width * 2 ^ (current.probes.length + 1) = 2 * width * 2 ^ current.probes.length := by ring
    _ ≤ (current.upper - current.lower) * 2 ^ current.probes.length := Nat.mul_le_mul_right _ half
    _ ≤ limit := sound.halved

/-- Each answer keeps the search sound. -/
theorem Search.Sound.step (sound : current.Sound high limit) (answer : Answer) :
    (current.step high answer).Sound high limit := by
  have ordered := sound.ordered
  have bounded := sound.bounded
  unfold Search.step
  split
  next isOpen =>
    have place : current.lower ≤ current.mid ∧ current.mid < current.upper := by
      unfold Search.mid
      omega
    have fresh := sound.fresh isOpen
    have half : 2 * (current.mid - current.lower) ≤ current.upper - current.lower ∧
        2 * (current.upper - (current.mid + 1)) ≤ current.upper - current.lower := by
      unfold Search.mid
      omega
    have below := place.2.trans_le bounded
    split
    next yes =>
      refine ⟨place.1, below.le, fun _ => ⟨answer, by simp, yes⟩, fun positive => ?_, ?_, by simpa using fresh, ?_⟩
      · obtain ⟨old, listed, no⟩ := sound.lower positive
        exact ⟨old, List.mem_append_left _ listed, no⟩
      · intro probe listed
        rcases List.mem_append.mp listed with before | here
        · refine ⟨(sound.outside probe before).1, (sound.outside probe before).2.imp id fun above => ?_⟩
          exact place.2.le.trans above
        · obtain rfl := List.mem_singleton.mp here
          exact ⟨below, .inr le_rfl⟩
      · simpa using sound.pay half.1
    next no =>
      refine ⟨place.2, bounded, fun less => ?_, fun _ => ⟨answer, by simp, by simpa using no⟩, ?_,
        by simpa using fresh, ?_⟩
      · obtain ⟨old, listed, yes⟩ := sound.upper less
        exact ⟨old, List.mem_append_left _ listed, yes⟩
      · intro probe listed
        rcases List.mem_append.mp listed with before | here
        · refine ⟨(sound.outside probe before).1, (sound.outside probe before).2.imp (fun low => ?_) id⟩
          exact low.trans_le (place.1.trans (Nat.le_succ _))
        · obtain rfl := List.mem_singleton.mp here
          exact ⟨below, .inl (Nat.lt_succ_self _)⟩
      · simpa using sound.pay half.2
  next => exact sound

/-- Each search is sound, whatever the answers. -/
theorem search_sound (high : Answer → Bool) (limit : Nat) (answers : List Answer) :
    (search high limit answers).Sound high limit := by
  refine List.foldlRecOn (motive := Search.Sound high limit) answers (Search.step high) ?_
    fun current sound answer _ => sound.step answer
  exact ⟨Nat.zero_le _, le_rfl, by simp, by simp, by simp, List.nodup_nil, by simp⟩

theorem search_concat (answers : List Answer) (answer : Answer) :
    search high limit (answers ++ [answer]) = (search high limit answers).step high answer := by
  rw [search, List.foldl_append, List.foldl_cons, List.foldl_nil]
  rfl

/-- An open search has asked for fewer positions than the bits of its limit. -/
theorem Search.Sound.few (sound : current.Sound high limit) {bits : Nat} (word : limit < 2 ^ bits)
    (isOpen : current.lower < current.upper) : current.probes.length < bits := by
  refine (Nat.pow_lt_pow_iff_right (by decide : 1 < 2)).mp (lt_of_le_of_lt ?_ word)
  refine le_trans ?_ sound.halved
  exact Nat.le_mul_of_pos_left _ (Nat.sub_pos_of_lt isOpen)

/-- A search asks for as many positions as its limit has bits, at most. -/
theorem search_probes_le {bits : Nat} (word : limit < 2 ^ bits) (answers : List Answer) :
    (search high limit answers).probes.length ≤ bits := by
  induction answers using List.reverseRecOn with
  | nil => exact Nat.zero_le bits
  | append_singleton before answer ih =>
      have sound := search_sound high limit before
      rw [search_concat, Search.step]
      split
      next isOpen =>
        have few := sound.few word isOpen
        split
        all_goals
          rw [List.length_append, List.length_singleton]
          exact few
      next => exact ih

/-- An open search has used each answer. -/
theorem search_open (answers : List Answer)
    (isOpen : (search high limit answers).lower < (search high limit answers).upper) :
    (search high limit answers).probes.length = answers.length := by
  induction answers using List.reverseRecOn with
  | nil => rfl
  | append_singleton before answer ih =>
      rw [search_concat, Search.step] at isOpen ⊢
      by_cases earlier : (search high limit before).lower < (search high limit before).upper
      · rw [if_pos earlier]
        split
        all_goals simp [ih earlier]
      · rw [if_neg earlier] at isOpen
        exact absurd isOpen earlier

/-- Enough answers close the search. -/
theorem search_closed {bits : Nat} (word : limit < 2 ^ bits) {answers : List Answer}
    (enough : bits ≤ answers.length) :
    (search high limit answers).upper ≤ (search high limit answers).lower := by
  by_contra isOpen
  have isOpen := Nat.lt_of_not_le isOpen
  have few := (search_sound high limit answers).few word isOpen
  rw [search_open answers isOpen] at few
  omega

/-- When the answers come from a set that is closed upwards, a closed search has found its least member. -/
theorem Search.Sound.least (sound : current.Sound high limit) (closed : current.upper ≤ current.lower)
    {members : Set Nat} (upwards : IsUpperSet members)
    (honest : ∀ probe ∈ current.probes, high probe.2 = true ↔ probe.1 ∈ members) :
    (current.upper < limit → IsLeast members current.upper) ∧ ∀ position < current.upper, position ∉ members := by
  have same := le_antisymm sound.ordered closed
  have below (position : Nat) (less : position < current.upper) : position ∉ members := by
    intro member
    obtain ⟨answer, listed, no⟩ := sound.lower (by omega)
    have missed := (honest _ listed).not.mp (by simp [no])
    exact missed (upwards (by omega : position ≤ current.lower - 1) member)
  refine ⟨fun less => ⟨?_, fun position member => ?_⟩, below⟩
  · obtain ⟨answer, listed, yes⟩ := sound.upper less
    exact (honest _ listed).mp yes
  · by_contra early
    exact below position (Nat.lt_of_not_le early) member

end KernelStudio.Bisection
