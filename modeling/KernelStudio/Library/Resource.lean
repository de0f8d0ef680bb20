/-
This file gives a ledger of resources of several kinds. A release must name a live object of its own kind,
and each release that does not is recorded as a fault.
-/

import KernelStudio.Library.Store

namespace KernelStudio.Resource

inductive Pointer where
  | uninitialised
  | null
  | object (key : Nat)
  deriving DecidableEq

/-- The live objects with their kinds, and the releases that did not match one. -/
structure Ledger (Kind : Type) where
  store : Store Kind := .empty
  faults : List (Kind × Pointer) := []

variable {Kind : Type}

/-- The next object that is obtained. -/
def Ledger.fresh (ledger : Ledger Kind) : Pointer := .object ledger.store.size

def Ledger.obtain (ledger : Ledger Kind) (kind : Kind) : Ledger Kind :=
  { ledger with store := ledger.store.insert kind }

/-- The pointer names a live object of the kind. -/
def Ledger.Matches (ledger : Ledger Kind) (kind : Kind) : Pointer → Prop
  | .object key => ledger.store.get key = some kind
  | .uninitialised | .null => False

/-- No object is live. -/
def Ledger.Cleared (ledger : Ledger Kind) : Prop := ∀ key, ledger.store.get key = none

/-- The pointer does not name an object that is obtained later. -/
def Ledger.Knows (ledger : Ledger Kind) : Pointer → Prop
  | .object key => key < ledger.store.size
  | .uninitialised | .null => True

variable {ledger : Ledger Kind} {kind : Kind} {pointer : Pointer} {key : Nat}

theorem matches_fresh : (ledger.obtain kind).Matches kind ledger.fresh := by
  simp [Ledger.Matches, Ledger.fresh, Ledger.obtain, Store.get_insert]

/-- An object stays live when another one is obtained. -/
theorem get_obtain (live : ledger.store.get key ≠ none) : (ledger.obtain kind).store.get key ≠ none := by
  rw [Ledger.obtain, Store.get_insert]
  split
  · exact Option.some_ne_none kind
  · exact live

theorem fresh_ne (live : ledger.store.get key ≠ none) : ledger.fresh ≠ .object key := by
  obtain ⟨kind, found⟩ := Option.ne_none_iff_exists'.mp live
  intro same
  exact Nat.ne_of_gt (Store.lt_size found) (Pointer.object.inj same)

/-- The object that is obtained first is the only live one. -/
theorem Ledger.Cleared.obtain (cleared : ledger.Cleared) (other : ledger.fresh ≠ .object key) :
    (ledger.obtain kind).store.get key = none := by
  have different : key ≠ ledger.store.size := fun same => other (same ▸ rfl)
  rw [Ledger.obtain, Store.get_insert, if_neg different]
  exact cleared key

theorem Ledger.Knows.ne_fresh (knows : ledger.Knows pointer) : pointer ≠ ledger.fresh := by
  rintro rfl
  exact Nat.lt_irrefl _ knows

theorem knows_fresh : (ledger.obtain kind).Knows ledger.fresh := Nat.lt_succ_self ledger.store.size

theorem Ledger.Knows.obtain (knows : ledger.Knows pointer) : (ledger.obtain kind).Knows pointer := by
  cases pointer with
  | object key => exact Nat.lt_succ_of_lt knows
  | uninitialised | null => trivial

section Release

variable [DecidableEq Kind]

instance (ledger : Ledger Kind) (kind : Kind) (pointer : Pointer) : Decidable (ledger.Matches kind pointer) :=
  match pointer with
  | .object key => inferInstanceAs (Decidable (ledger.store.get key = some kind))
  | .uninitialised | .null => isFalse id

/-- An object is gone after a release that matches it. -/
def Ledger.release (ledger : Ledger Kind) (kind : Kind) (pointer : Pointer) : Ledger Kind :=
  if ledger.Matches kind pointer then
    match pointer with
    | .object key => { ledger with store := ledger.store.erase key }
    | .uninitialised | .null => ledger
  else { ledger with faults := ledger.faults ++ [(kind, pointer)] }

@[simp] theorem size_release : (ledger.release kind pointer).store.size = ledger.store.size := by
  unfold Ledger.release
  split
  · cases pointer <;> rfl
  · rfl

/-- A release leaves the objects that its pointer does not name. -/
theorem get_release (other : pointer ≠ .object key) :
    (ledger.release kind pointer).store.get key = ledger.store.get key := by
  unfold Ledger.release
  split
  · cases pointer with
    | uninitialised | null => rfl
    | object released =>
        have different : key ≠ released := fun same => other (same ▸ rfl)
        simp [Store.get_erase, different]
  · rfl

/-- A matching release adds no fault. -/
theorem faults_release (matching : ledger.Matches kind pointer) :
    (ledger.release kind pointer).faults = ledger.faults := by
  unfold Ledger.release
  rw [if_pos matching]
  cases pointer <;> rfl

/-- The release of the only live object clears the ledger. -/
theorem cleared_release (matching : ledger.Matches kind pointer)
    (only : ∀ key, pointer ≠ .object key → ledger.store.get key = none) :
    (ledger.release kind pointer).Cleared := by
  intro key
  by_cases named : pointer = .object key
  · subst named
    unfold Ledger.release
    rw [if_pos matching]
    simp [Store.get_erase]
  · rw [get_release named]
    exact only key named

theorem faults_release_of_not_matches (mismatched : ¬ ledger.Matches kind pointer) :
    (ledger.release kind pointer).faults ≠ [] := by
  simp [Ledger.release, mismatched]

/-- A release never takes a fault back. -/
theorem faults_release_ne_nil (faulty : ledger.faults ≠ []) : (ledger.release kind pointer).faults ≠ [] := by
  by_cases matching : ledger.Matches kind pointer
  · rwa [faults_release matching]
  · exact faults_release_of_not_matches matching

theorem Ledger.Knows.release {released : Pointer} (knows : ledger.Knows pointer) :
    (ledger.release kind released).Knows pointer := by
  cases pointer with
  | object key => exact Nat.lt_of_lt_of_eq knows size_release.symm
  | uninitialised | null => trivial

end Release

end KernelStudio.Resource
