/-
This file gives a store of objects whose keys are never used twice, and the lists that its live objects hold.
-/

import Mathlib.Data.List.Perm.Basic
import Mathlib.Data.List.Range
import Mathlib.Tactic.Common

namespace KernelStudio

/-- The keys below `size` have been given out. A key without an object has been erased or not been given out. -/
structure Store (α : Type) where
  size : Nat
  get : Nat → Option α
  bounded (key : Nat) : size ≤ key → get key = none

namespace Store

variable {α β : Type}

def empty : Store α := ⟨0, fun _ => none, fun _ _ => rfl⟩

/-- A new object has the next key. -/
def insert (store : Store α) (object : α) : Store α where
  size := store.size + 1
  get key := if key = store.size then some object else store.get key
  bounded key outside := by
    rw [if_neg (by omega)]
    exact store.bounded key (by omega)

/-- This operation replaces a live object. -/
def set (store : Store α) (key : Nat) (object : α) : Store α where
  size := store.size
  get other := if other = key then (store.get key).map fun _ => object else store.get other
  bounded other outside := by
    split
    · next same => rw [← same, store.bounded other outside, Option.map_none]
    · exact store.bounded other outside

/-- An erased object leaves its key unused. -/
def erase (store : Store α) (key : Nat) : Store α where
  size := store.size
  get other := if other = key then none else store.get other
  bounded other outside := by
    split
    · rfl
    · exact store.bounded other outside

/-- What the live objects hold, in the order of their keys. -/
def gather (store : Store α) (held : α → List β) : List β :=
  (List.range store.size).flatMap fun key => (store.get key).elim [] held

variable {store : Store α} {object : α} {key : Nat}

@[simp] theorem size_empty : (empty : Store α).size = 0 := rfl

@[simp] theorem get_empty (key : Nat) : (empty : Store α).get key = none := rfl

@[simp] theorem size_insert : (store.insert object).size = store.size + 1 := rfl

@[simp] theorem size_set : (store.set key object).size = store.size := rfl

@[simp] theorem size_erase : (store.erase key).size = store.size := rfl

theorem get_insert (other : Nat) :
    (store.insert object).get other = if other = store.size then some object else store.get other := rfl

theorem get_set {old : α} (live : store.get key = some old) (other : Nat) :
    (store.set key object).get other = if other = key then some object else store.get other := by
  simp only [set, live, Option.map_some]

theorem get_erase (other : Nat) : (store.erase key).get other = if other = key then none else store.get other := rfl

theorem lt_size (live : store.get key = some object) : key < store.size := by
  by_contra outside
  rw [store.bounded key (Nat.le_of_not_lt outside)] at live
  contradiction

theorem mem_gather {held : α → List β} {element : β} :
    element ∈ store.gather held ↔ ∃ key object, store.get key = some object ∧ element ∈ held object := by
  constructor
  · intro known
    obtain ⟨key, _, inside⟩ := List.mem_flatMap.mp known
    cases live : store.get key with
    | none => simp [live] at inside
    | some object => exact ⟨key, object, live, by simpa [live] using inside⟩
  · rintro ⟨key, object, live, inside⟩
    exact List.mem_flatMap.mpr ⟨key, List.mem_range.mpr (lt_size live), by simpa [live] using inside⟩

@[simp] theorem gather_empty (held : α → List β) : (empty : Store α).gather held = [] := rfl

@[simp] theorem gather_insert (held : α → List β) :
    (store.insert object).gather held = store.gather held ++ held object := by
  rw [gather, size_insert, List.range_succ, List.flatMap_append]
  congr 1
  · refine List.flatMap_congr fun key known => ?_
    rw [get_insert, if_neg (Nat.ne_of_lt (List.mem_range.mp known))]
  · simp [get_insert]

/-- What an object holds is part of what all live objects hold. -/
theorem gather_perm (live : store.get key = some object) (held : α → List β) :
    List.Perm (store.gather held) (held object ++ (store.erase key).gather held) := by
  let held? (other : Nat) : List β := (store.get other).elim [] held
  let rest := (List.range store.size).erase key
  have split : List.Perm (List.range store.size) (key :: rest) :=
    List.perm_cons_erase (List.mem_range.mpr (lt_size live))
  have whole : List.Perm (store.gather held) (held object ++ rest.flatMap held?) := by
    simpa [gather, held?, live] using split.flatMap_right held?
  have remaining : List.Perm ((store.erase key).gather held) (rest.flatMap held?) := by
    have same : rest.flatMap (fun other => ((store.erase key).get other).elim [] held) = rest.flatMap held? := by
      refine List.flatMap_congr fun other known => ?_
      rw [get_erase, if_neg (List.nodup_range.mem_erase_iff.mp known).1]
    have erased := split.flatMap_right fun other => ((store.erase key).get other).elim [] held
    rw [List.flatMap_cons, same, get_erase, if_pos rfl] at erased
    exact erased
  exact whole.trans (remaining.symm.append_left _)

/-- A replaced object changes only its own part of what the live objects hold. -/
theorem gather_set_perm {old : α} (live : store.get key = some old) (held : α → List β) :
    List.Perm ((store.set key object).gather held) (held object ++ (store.erase key).gather held) := by
  have now : (store.set key object).get key = some object := by rw [get_set live, if_pos rfl]
  have same : (store.set key object).erase key = store.erase key := by
    simp only [erase, set, mk.injEq, true_and]
    funext other
    split <;> rfl
  exact same ▸ gather_perm now held

/-- A replaced object that holds the same changes nothing. -/
theorem gather_set_of_eq {old : α} (live : store.get key = some old) {held : α → List β}
    (same : held object = held old) : (store.set key object).gather held = store.gather held := by
  refine List.flatMap_congr fun other _ => ?_
  rw [get_set live]
  split
  · next mine => rw [mine, live, Option.elim_some, Option.elim_some, same]
  · rfl

end Store

end KernelStudio
