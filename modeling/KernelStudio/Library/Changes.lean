/-
This file gives the changes between one listing and the next.
A history of exact changes accounts for the last listing, and the changes of each element alternate.
-/

import Mathlib.Data.List.Chain
import Mathlib.Data.List.Nodup
import Mathlib.Tactic.Common

namespace KernelStudio.Changes

variable {α : Type} [DecidableEq α]

/-- A change names an element that has appeared or one that has gone. -/
inductive Change (α : Type) where
  | created (element : α)
  | deleted (element : α)
  deriving DecidableEq

/-- The changes from one listing to the next, each kind in listing order. -/
def changes (old new : List α) : List (Change α) :=
  (new.filter (· ∉ old)).map .created ++ (old.filter (· ∉ new)).map .deleted

/-- The changes of each listing of a sequence. -/
def history : List α → List (List α) → List (List (Change α))
  | _, [] => []
  | old, new :: later => changes old new :: history new later

/-- The last listing of a sequence. -/
def current (initial : List α) (listings : List (List α)) : List α := listings.getLastD initial

/-- A change of an element says whether the element is there now. -/
def Change.presence (element : α) : Change α → Option Bool
  | .created other => if other = element then some true else none
  | .deleted other => if other = element then some false else none

def Change.created? : Change α → Option α
  | .created element => some element
  | .deleted _ => none

def Change.deleted? : Change α → Option α
  | .created _ => none
  | .deleted element => some element

variable {old new initial : List α} {listings : List (List α)}

@[simp] theorem filterMap_created_changes : (changes old new).filterMap Change.created? = new.filter (· ∉ old) := by
  simp [changes, List.filterMap_map, Function.comp_def, Change.created?]

@[simp] theorem filterMap_deleted_changes : (changes old new).filterMap Change.deleted? = old.filter (· ∉ new) := by
  simp [changes, List.filterMap_map, Function.comp_def, Change.deleted?]

/-- A listing without repetitions mentions an element once at most. -/
theorem filterMap_mention {listing : List α} (distinct : listing.Nodup) (element : α) (mark : Bool) :
    listing.filterMap (fun other => if other = element then some mark else none) =
      if element ∈ listing then [mark] else [] := by
  induction listing with
  | nil => rfl
  | cons first rest ih =>
      obtain ⟨apart, distinct⟩ := List.nodup_cons.mp distinct
      by_cases same : first = element
      · subst same
        simp [ih distinct, apart]
      · simp [ih distinct, same, Ne.symm same]

/-- One listing changes an element once at most, and then the element is there exactly when it was not. -/
theorem presence_changes (distinct : old.Nodup) (fresh : new.Nodup) (element : α) :
    (changes old new).filterMap (Change.presence element) =
      if element ∈ old ↔ element ∈ new then [] else [decide (element ∈ new)] := by
  rw [changes, List.filterMap_append, List.filterMap_map, List.filterMap_map]
  simp only [Function.comp_def, Change.presence]
  rw [filterMap_mention (fresh.filter _), filterMap_mention (distinct.filter _)]
  by_cases before : element ∈ old <;> by_cases after : element ∈ new <;> simp [before, after]

/-- The changes of an element alternate, and the first one contradicts the initial listing. -/
theorem alternates (distinct : initial.Nodup) (fresh : ∀ listing ∈ listings, listing.Nodup) (element : α) :
    List.IsChain (· ≠ ·) (decide (element ∈ initial) ::
      (history initial listings).flatten.filterMap (Change.presence element)) := by
  induction listings generalizing initial with
  | nil => exact .singleton _
  | cons new later ih =>
      have unique := fresh new List.mem_cons_self
      have rest := ih unique fun listing known => fresh listing (List.mem_cons_of_mem new known)
      rw [history, List.flatten_cons, List.filterMap_append, presence_changes distinct unique]
      split
      · next same => simpa [same] using rest
      · next other =>
          rw [List.singleton_append, List.isChain_cons_cons]
          exact ⟨by simpa using other, rest⟩

/-- The elements that have stayed are the same from both sides. -/
theorem perm_changes (distinct : old.Nodup) (fresh : new.Nodup) :
    List.Perm (old ++ new.filter (· ∉ old)) (new ++ old.filter (· ∉ new)) := by
  rw [List.perm_ext_iff_of_nodup]
  · intro element
    by_cases before : element ∈ old <;> simp [before, em]
  · exact distinct.append (fresh.filter _) (by simp +contextual [List.Disjoint])
  · exact fresh.append (distinct.filter _) (by simp +contextual [List.Disjoint])

/-- The initial listing and what was created make up the last listing and what was deleted. -/
theorem balance (distinct : initial.Nodup) (fresh : ∀ listing ∈ listings, listing.Nodup) :
    List.Perm (initial ++ (history initial listings).flatten.filterMap Change.created?)
      (current initial listings ++ (history initial listings).flatten.filterMap Change.deleted?) := by
  induction listings generalizing initial with
  | nil => simp [history, current]
  | cons new later ih =>
      have unique := fresh new List.mem_cons_self
      have rest := ih unique fun listing known => fresh listing (List.mem_cons_of_mem new known)
      have last : current initial (new :: later) = current new later := List.getLastD_cons
      rw [history, List.flatten_cons, List.filterMap_append, List.filterMap_append, filterMap_created_changes,
        filterMap_deleted_changes, last, ← List.append_assoc]
      calc List.Perm _ _ := (perm_changes distinct unique).append_right _
        List.Perm _ (initial.filter (· ∉ new) ++ (new ++ (history new later).flatten.filterMap Change.created?)) := by
          rw [List.append_assoc]
          exact List.perm_append_comm_assoc _ _ _
        List.Perm _ _ := (rest.append_left _).trans (List.perm_append_comm_assoc _ _ _)

end KernelStudio.Changes
