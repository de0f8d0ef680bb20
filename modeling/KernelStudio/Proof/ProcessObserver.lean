/-
This file proves for which listings and buffers the process observer reports exactly what has changed.
The loop over the new listing is right. The loop over the old listing has its two indices exchanged.
-/

import KernelStudio.Construction.ProcessObserver

namespace KernelStudio.ProcessObserver

open Changes

/-- The reports of a run name the changes of each round, the reports of a process alternate, and all reports
together lead from the initial listing to the current one. -/
structure ChangesReported (initial : List Int) (listings : List (List Int)) (reports : List (List Line)) : Prop where
  exact : reports.map (·.filterMap Line.change) = history initial listings
  alternate (pid : Int) : List.IsChain (· ≠ ·)
    (decide (pid ∈ initial) :: (reports.flatten.filterMap Line.change).filterMap (Change.presence pid))
  balanced : List.Perm (initial ++ (reports.flatten.filterMap Line.change).filterMap Change.created?)
    (current initial listings ++ (reports.flatten.filterMap Line.change).filterMap Change.deleted?)

/-- At each position of the old listing, the cell of the new buffer occurs among the first cells of the old buffer,
as many as the new listing has, exactly when the process at this position is still listed. -/
def Matched (oldList newList : Buffer) : Prop :=
  ∀ j < oldList.len,
    (∃ k < newList.len, newList.list j = oldList.list k) ↔ ∃ k < newList.len, newList.list k = oldList.list j

/-- The flag of an inner loop stays set as long as no cell is equal. -/
theorem unmatched_iff {newList oldList : Nat → Int} {j len : Nat} :
    unmatched newList oldList j len = true ↔ ¬∃ k < len, newList j = oldList k := by
  unfold unmatched
  induction len with
  | zero => simp
  | succ len ih =>
      rw [List.range_succ, List.foldl_append, List.foldl_cons, List.foldl_nil, Nat.exists_lt_succ_right, not_or, ← ih]
      by_cases equal : newList j = oldList len <;> simp [equal]

section Fill

variable (malloc : Nat → Int) (listing : Listing)

/-- The entries of a filled buffer are the listing. -/
theorem map_fill : (List.range (fill malloc listing).len).map (fill malloc listing).list = listing.pids := by
  refine List.ext_getElem (by simp [fill]) fun i _ inside => ?_
  simp [fill, inside]

theorem exists_fill_iff {pid : Int} :
    (∃ k < (fill malloc listing).len, (fill malloc listing).list k = pid) ↔ pid ∈ listing.pids := by
  conv_rhs => rw [← map_fill malloc listing, List.mem_map]
  simp only [List.mem_range]

/-- The processes of a listing that pass a test stand where the entries of its buffer pass it. -/
theorem filter_fill (test : Int → Bool) :
    ((List.range (fill malloc listing).len).filter (test ∘ (fill malloc listing).list)).map
      (fill malloc listing).list = listing.pids.filter test := by
  rw [← List.filter_map, map_fill]

end Fill

/-- Two filters of a list with distinct images leave the same images only if they agree on the list. -/
theorem map_filter_inj {α β : Type} {list : List α} {f : α → β} {p q : α → Bool} (distinct : (list.map f).Nodup) :
    (list.filter p).map f = (list.filter q).map f ↔ ∀ a ∈ list, p a = q a := by
  constructor
  · have half {p q : α → Bool} (same : (list.filter p).map f = (list.filter q).map f) (a : α) (known : a ∈ list)
        (passed : p a = true) : q a = true := by
      have image : f a ∈ (list.filter q).map f := same ▸ List.mem_map_of_mem (List.mem_filter.mpr ⟨known, passed⟩)
      obtain ⟨b, listed, equal⟩ := List.mem_map.mp image
      obtain ⟨listed, other⟩ := List.mem_filter.mp listed
      exact List.inj_on_of_nodup_map distinct listed known equal ▸ other
    exact fun same a known => Bool.eq_iff_iff.mpr ⟨half same a known, half same.symm a known⟩
  · exact fun agree => congrArg _ (List.filter_congr agree)

/-- The loop over the new listing reports the unmatched cells of its positions. -/
theorem change_createdTurn (oldList newList : Buffer) (parents : Int → List Int) (positions : List Nat)
    (cur : Observer × List Line) :
    (positions.foldl (createdTurn oldList newList parents) cur).2.filterMap Line.change =
      cur.2.filterMap Line.change ++
        (positions.filter (unmatched newList.list oldList.list · oldList.len)).map (.created ∘ newList.list) := by
  induction positions generalizing cur with
  | nil => simp
  | cons j rest ih =>
      rw [List.foldl_cons, ih, createdTurn]
      by_cases missing : unmatched newList.list oldList.list j oldList.len = true <;>
        simp [missing, Line.change]

/-- The loop over the old listing reports the processes at the unmatched positions. -/
theorem change_deletedTurn (oldList newList : Buffer) (positions : List Nat) (lines : List Line) :
    (positions.foldl (deletedTurn oldList newList) lines).filterMap Line.change =
      lines.filterMap Line.change ++
        (positions.filter (unmatched newList.list oldList.list · newList.len)).map (.deleted ∘ oldList.list) := by
  induction positions generalizing lines with
  | nil => simp
  | cons j rest ih =>
      rw [List.foldl_cons, ih, deletedTurn]
      by_cases missing : unmatched newList.list oldList.list j newList.len = true <;>
        simp [missing, Line.change]

/-- A round leaves the new buffer as the old one of the next round. -/
@[simp] theorem oldList_round (state : Observer) (round : Round) :
    (state.round round).1.oldList = round.newList := rfl

variable {malloc : Nat → Int} {initial : Listing}

/-- The created lines of a round are right for all listings. -/
theorem created_round (round : Round) :
    ((List.range round.newList.len).filter
      (unmatched round.newList.list (fill malloc initial).list · (fill malloc initial).len)).map
        (.created ∘ round.newList.list) =
      (round.listing.pids.filter (· ∉ initial.pids)).map Change.created := by
  rw [← filter_fill round.malloc, List.map_map]
  refine congrArg _ (List.filter_congr fun j _ => ?_)
  rw [Bool.eq_iff_iff, unmatched_iff, Function.comp_apply, decide_eq_true_eq, ← exists_fill_iff malloc]
  simp only [eq_comm]
  rfl

/-- The deleted lines of a round are right exactly when the two buffers match. -/
theorem deleted_round_iff (round : Round) :
    ((List.range (fill malloc initial).len).filter
      (unmatched round.newList.list (fill malloc initial).list · round.newList.len)).map
        (.deleted ∘ (fill malloc initial).list) =
      (initial.pids.filter (· ∉ round.listing.pids)).map Change.deleted ↔
      Matched (fill malloc initial) round.newList := by
  rw [← filter_fill malloc, List.map_map, map_filter_inj]
  · refine forall_congr' fun j => ?_
    rw [List.mem_range, Bool.eq_iff_iff, unmatched_iff, Function.comp_apply, decide_eq_true_eq,
      ← exists_fill_iff round.malloc, not_iff_not]
    rfl
  · rw [← List.map_map, map_fill]
    exact initial.distinct.map fun _ _ => Change.deleted.inj

/-- Processes that follow an unchanged listing leave the buffers matched. -/
theorem matched_of_prefix {round : Round} (same : initial.pids <+: round.listing.pids) :
    Matched (fill malloc initial) round.newList := by
  intro j inside
  have within : j < round.newList.len := Nat.lt_of_lt_of_le inside same.length_le
  have equal : round.newList.list j = (fill malloc initial).list j := by
    change j < initial.pids.length at inside
    simp [Round.newList, fill, ← same.getElem inside, inside, Nat.lt_of_lt_of_le inside same.length_le]
  exact ⟨fun _ => ⟨j, within, equal⟩, fun _ => ⟨j, within, equal⟩⟩

/-- A round reports exactly the changes exactly when the two buffers match. -/
theorem change_round_iff {state : Observer} (old : state.oldList = fill malloc initial) (round : Round) :
    (state.round round).2.filterMap Line.change = changes initial.pids round.listing.pids ↔
      Matched (fill malloc initial) round.newList := by
  rw [Observer.round, change_deletedTurn, change_createdTurn, old, changes, created_round, List.filterMap_nil,
    List.nil_append, List.append_cancel_left_eq]
  exact deleted_round_iff round

/-- The rounds of a run report exactly the changes exactly when the buffers of each two rounds match. -/
theorem change_run_iff {state : Observer} (old : state.oldList = fill malloc initial) (rounds : List Round) :
    (state.run rounds).map (·.filterMap Line.change) = history initial.pids (rounds.map (·.listing.pids)) ↔
      List.IsChain Matched (fill malloc initial :: rounds.map Round.newList) := by
  induction rounds generalizing state malloc initial with
  | nil => simp [Observer.run, history]
  | cons round later ih =>
      rw [Observer.run, List.map_cons, List.map_cons, history, List.cons.injEq, change_round_iff old, List.map_cons,
        List.isChain_cons_cons, ih (oldList_round state round)]
      rfl

/-- The observer reports exactly the changes exactly when the buffers of each two rounds match. -/
theorem changes_reported_iff (malloc : Nat → Int) (initial : Listing) (rounds : List Round) :
    ChangesReported initial.pids (rounds.map (·.listing.pids)) (main malloc initial rounds) ↔
      List.IsChain Matched (fill malloc initial :: rounds.map Round.newList) := by
  rw [← @change_run_iff malloc initial { oldList := fill malloc initial } rfl]
  refine ⟨ChangesReported.exact, fun exact => ?_⟩
  have all : (main malloc initial rounds).flatten.filterMap Line.change =
      (history initial.pids (rounds.map (·.listing.pids))).flatten := by
    rw [← exact, List.filterMap_flatten]
    rfl
  have fresh (listing : List Int) (known : listing ∈ rounds.map (·.listing.pids)) : listing.Nodup := by
    obtain ⟨round, _, rfl⟩ := List.mem_map.mp known
    exact round.listing.distinct
  exact
    { exact
      alternate := fun pid => by
        rw [all]
        exact alternates initial.distinct fresh pid
      balanced := by
        rw [all]
        exact balance initial.distinct fresh }

/-- The second of three processes ends. -/
def threeProcesses : Listing := ⟨[1, 2, 3], by decide, by decide, by decide⟩

def twoProcesses : Round := ⟨⟨[1, 3], by decide, by decide, by decide⟩, fun _ => 0, fun _ => []⟩

/-- The observer then reports that the second and the third process have been deleted. -/
theorem survivor_deleted : main (fun _ => 0) threeProcesses [twoProcesses] = [[.deleted 2, .deleted 3]] ∧
    ¬ ChangesReported threeProcesses.pids [twoProcesses.listing.pids]
      (main (fun _ => 0) threeProcesses [twoProcesses]) := by
  have printed : main (fun _ => 0) threeProcesses [twoProcesses] = [[.deleted 2, .deleted 3]] := by decide
  refine ⟨printed, fun reported => ?_⟩
  have exact := reported.exact
  rw [printed] at exact
  revert exact
  decide

end KernelStudio.ProcessObserver
