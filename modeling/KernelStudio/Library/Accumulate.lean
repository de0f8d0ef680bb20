/-
This file gives loops that combine one entry of a table with one value in each round, loops whose statement can be
refused, and the loops over the rows and columns of a matrix that is stored row by row.
-/

import Mathlib.Algebra.Order.Group.Nat
import Mathlib.Data.List.Range
import Mathlib.Logic.Function.Basic
import Mathlib.Tactic.Common

namespace KernelStudio.Accumulate

section Tables

variable {κ α β : Type} [DecidableEq κ] (combine : α → β → α)

/-- One entry of a table is combined with a value. -/
def combineAt (table : κ → α) (item : κ × β) : κ → α :=
  Function.update table item.1 (combine (table item.1) item.2)

/-- An entry ends as the combination of its own values, in their order. -/
theorem foldl_combineAt (items : List (κ × β)) (table : κ → α) (key : κ) :
    items.foldl (combineAt combine) table key =
      ((items.filter (·.1 = key)).map Prod.snd).foldl combine (table key) := by
  induction items generalizing table with
  | nil => rfl
  | cons item rest ih =>
      rw [List.foldl_cons, ih]
      by_cases own : item.1 = key
      · subst own
        simp [combineAt]
      · have other : key ≠ item.1 := fun same => own same.symm
        simp [combineAt, own, other]

end Tables

section Refused

variable {σ ι : Type} (Kept : σ → Prop) (Checked : ι → Prop) [DecidablePred Checked] {step : σ → ι → Option σ}
  (combine : σ → ι → σ)

/-- A loop whose statement is refused outside of a check comes to its end exactly when all items pass the check. Then
it is the plain loop. -/
theorem foldlM_of_checked (items : List ι) {state : σ} (initial : Kept state)
    (kept : ∀ state item, Kept state → Kept (combine state item))
    (checked : ∀ state item, Kept state → step state item = if Checked item then some (combine state item) else none) :
    items.foldlM step state =
      if ∀ item ∈ items, Checked item then some (items.foldl combine state) else none := by
  induction items generalizing state with
  | nil => simp
  | cons item rest ih =>
      rw [List.foldlM_cons, checked state item initial]
      by_cases passes : Checked item
      · rw [if_pos passes, Option.bind_eq_bind, Option.bind_some, ih (kept state item initial)]
        simp [passes]
      · rw [if_neg passes, if_neg fun all => passes (all item List.mem_cons_self)]
        rfl

end Refused

section Rounds

variable {β : Type}

/-- A loop whose rounds but one are all filtered out leaves what this round leaves. -/
theorem filter_flatMap_range {count selected : Nat} (inside : selected < count) (kept : β → Bool) (round : Nat → List β)
    (others : ∀ index < count, index ≠ selected → (round index).filter kept = []) :
    ((List.range count).flatMap round).filter kept = (round selected).filter kept := by
  induction count with
  | zero => exact absurd inside (Nat.not_lt_zero selected)
  | succ count ih =>
      rw [List.range_succ, List.flatMap_append, List.filter_append, List.flatMap_singleton]
      by_cases last : selected = count
      · subst last
        have earlier : ((List.range selected).flatMap round).filter kept = [] := by
          rw [List.filter_flatMap, List.flatMap_eq_nil_iff]
          intro index known
          have below := List.mem_range.mp known
          exact others index (Nat.lt_succ_of_lt below) (Nat.ne_of_lt below)
        rw [earlier, List.nil_append]
      · rw [ih (by omega) fun index below => others index (Nat.lt_succ_of_lt below),
          others count (Nat.lt_succ_self count) fun same => last same.symm, List.append_nil]

end Rounds

section Rows

variable {rows cols row col other otherCol : Nat}

/-- The places of a matrix that is stored row by row lie in a table of its size. -/
theorem place_lt (inside : row < rows) (below : col < cols) : row * cols + col < rows * cols := by
  have whole : (row + 1) * cols ≤ rows * cols := Nat.mul_le_mul_right cols inside
  rw [Nat.add_mul, Nat.one_mul] at whole
  omega

/-- A place has one row and one column. -/
theorem place_inj (below : col < cols) (otherBelow : otherCol < cols) :
    row * cols + col = other * cols + otherCol ↔ row = other ∧ col = otherCol := by
  constructor
  · intro same
    have positive : 0 < cols := Nat.zero_lt_of_lt below
    have rowSame : (row * cols + col) / cols = (other * cols + otherCol) / cols := congrArg (· / cols) same
    rw [Nat.mul_comm row, Nat.mul_comm other, Nat.mul_add_div positive, Nat.mul_add_div positive,
      Nat.div_eq_of_lt below, Nat.div_eq_of_lt otherBelow, Nat.add_zero, Nat.add_zero] at rowSame
    subst rowSame
    exact ⟨rfl, Nat.add_left_cancel same⟩
  · rintro ⟨rfl, rfl⟩
    rfl

/-- Each place of the table belongs to a row and a column. -/
theorem exists_place {place : Nat} (inside : place < rows * cols) :
    ∃ row < rows, ∃ col < cols, place = row * cols + col := by
  have positive : 0 < cols := Nat.pos_of_ne_zero fun none => by simp [none] at inside
  exact ⟨place / cols, (Nat.div_lt_iff_lt_mul positive).mpr inside, place % cols, Nat.mod_lt _ positive,
    (Nat.div_add_mod' place cols).symm⟩

end Rows

end KernelStudio.Accumulate
