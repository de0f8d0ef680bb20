/-
This file gives objects that are shared by handles and count them.
The last handle finds a count of one, and each key is released once.
-/

import KernelStudio.Library.Store

namespace KernelStudio.Sharing

variable {α : Type} {references : α → Nat} {handles : List Nat} {store : Store α} {key : Nat} {object next : α}

/-- Each handle names a live object, which counts the handles that name it. -/
def Counted (references : α → Nat) (handles : List Nat) (store : Store α) : Prop :=
  ∀ key ∈ handles, ∃ object, store.get key = some object ∧ references object = handles.count key

/-- The released keys are the keys without an object, each of them once. -/
def ReleasedOnce (released : List Nat) (store : Store α) : Prop :=
  ∀ key, released.count key = if key < store.size ∧ store.get key = none then 1 else 0

theorem Counted.perm {others : List Nat} (counted : Counted references handles store) (same : handles.Perm others) :
    Counted references others store := fun key known => by
  simpa only [same.count_eq] using counted key (same.mem_iff.mpr known)

theorem Counted.get (counted : Counted references (key :: handles) store) (live : store.get key = some object) :
    references object = handles.count key + 1 := by
  obtain ⟨other, found, count⟩ := counted key List.mem_cons_self
  rw [live, Option.some.injEq] at found
  rw [found, count, List.count_cons_self]

theorem Counted.lt_size (counted : Counted references handles store) (known : key ∈ handles) : key < store.size := by
  obtain ⟨_, live, _⟩ := counted key known
  exact Store.lt_size live

/-- A new object may wait for its first handle. -/
theorem Counted.insert (counted : Counted references handles store) :
    Counted references handles (store.insert object) := fun key known => by
  rw [Store.get_insert, if_neg (Nat.ne_of_lt (counted.lt_size known))]
  exact counted key known

/-- A new object with its first handle counts one. -/
theorem Counted.create (counted : Counted references handles store) (one : references object = 1) :
    Counted references (store.size :: handles) (store.insert object) := by
  have unused : store.size ∉ handles := fun known => Nat.lt_irrefl _ (counted.lt_size known)
  intro key known
  rcases List.mem_cons.mp known with rfl | old
  · exact ⟨object, if_pos rfl, by rw [one, List.count_cons_self, List.count_eq_zero_of_not_mem unused]⟩
  · have other : store.size ≠ key := fun same => unused (same ▸ old)
    rw [List.count_cons_of_ne other]
    exact counted.insert key old

/-- The handles of other objects do not notice a replacement. -/
theorem Counted.set_of_ne (counted : Counted references handles store) (live : store.get key = some object)
    (next : α) {other : Nat} (apart : other ≠ key) (known : other ∈ handles) :
    ∃ found, (store.set key next).get other = some found ∧ references found = handles.count other := by
  rw [Store.get_set live, if_neg apart]
  exact counted other known

/-- A replacement keeps the count. -/
theorem Counted.replace (counted : Counted references handles store) (live : store.get key = some object)
    (same : references next = references object) : Counted references handles (store.set key next) := by
  intro other known
  by_cases mine : other = key
  · subst mine
    obtain ⟨found, now, count⟩ := counted other known
    rw [live, Option.some.injEq] at now
    exact ⟨next, by rw [Store.get_set live, if_pos rfl], by rw [same, now, count]⟩
  · exact counted.set_of_ne live next mine known

/-- A further handle increments the count. -/
theorem Counted.share (counted : Counted references handles store) (live : store.get key = some object)
    (known : key ∈ handles) (more : references next = references object + 1) :
    Counted references (key :: handles) (store.set key next) := by
  intro other listed
  by_cases mine : other = key
  · subst mine
    obtain ⟨found, now, count⟩ := counted other known
    rw [live, Option.some.injEq] at now
    exact ⟨next, by rw [Store.get_set live, if_pos rfl], by rw [more, now, count, List.count_cons_self]⟩
  · rw [List.count_cons_of_ne (Ne.symm mine)]
    exact counted.set_of_ne live next mine ((List.mem_cons.mp listed).resolve_left mine)

/-- A handle that goes decrements the count. -/
theorem Counted.drop (counted : Counted references (key :: handles) store) (live : store.get key = some object)
    (fewer : references next + 1 = references object) : Counted references handles (store.set key next) := by
  have count := counted.get live
  intro other known
  by_cases mine : other = key
  · subst mine
    exact ⟨next, by rw [Store.get_set live, if_pos rfl], by omega⟩
  · have found := counted.set_of_ne live next mine (List.mem_cons_of_mem key known)
    rwa [List.count_cons_of_ne (Ne.symm mine)] at found

/-- The last handle leaves no other one behind. -/
theorem Counted.last (counted : Counted references (key :: handles) store) (live : store.get key = some object)
    (one : references object = 1) : key ∉ handles ∧ Counted references handles (store.erase key) := by
  have count := counted.get live
  have alone : key ∉ handles := List.count_eq_zero.mp (by omega)
  refine ⟨alone, fun other known => ?_⟩
  have apart : other ≠ key := fun same => alone (same ▸ known)
  have found := counted other (List.mem_cons_of_mem key known)
  rw [List.count_cons_of_ne (Ne.symm apart)] at found
  rwa [Store.get_erase, if_neg apart]

variable {released : List Nat}

theorem ReleasedOnce.insert (once : ReleasedOnce released store) : ReleasedOnce released (store.insert object) := by
  intro other
  rw [once other, Store.size_insert, Store.get_insert]
  by_cases new : other = store.size
  · simp [new]
  · simp only [new, if_false, show other < store.size + 1 ↔ other < store.size by omega]

theorem ReleasedOnce.set (once : ReleasedOnce released store) (live : store.get key = some object) :
    ReleasedOnce released (store.set key next) := by
  intro other
  rw [once other, Store.size_set, Store.get_set live]
  by_cases mine : other = key
  · simp [mine, live]
  · simp [mine]

theorem ReleasedOnce.erase (once : ReleasedOnce released store) (live : store.get key = some object) :
    ReleasedOnce (key :: released) (store.erase key) := by
  intro other
  rw [List.count_cons, once other, Store.size_erase, Store.get_erase]
  by_cases mine : other = key
  · simp [mine, live, Store.lt_size live]
  · simp [mine, Ne.symm mine]

end KernelStudio.Sharing
