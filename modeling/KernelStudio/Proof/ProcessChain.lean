/-
This file proves what the chains of the process observer say: the line of a chain is ended exactly when the new process
descends from the first process that the observer has reported.
-/

import KernelStudio.Construction.ProcessObserver
import Mathlib.Data.List.Forall2
import Mathlib.Logic.Relation

namespace KernelStudio.ProcessObserver

variable {proc : Int → Option Int} {originalPid pid : Int} {state : Observer} {lines : List Line}

/-- The parents in this order are all ancestors of a process in a snapshot of `/proc`. -/
def ReadsAll (proc : Int → Option Int) : Int → List Int → Prop
  | pid, [] => proc pid = none
  | pid, ppid :: parents => proc pid = some ppid ∧ ReadsAll proc ppid parents

/-- The processes and their parents do not change while a round prints its chains. -/
def Round.Snapshot (round : Round) (proc : Int → Option Int) : Prop := ∀ pid, ReadsAll proc pid (round.parents pid)

/-- A chain leads from a process through its parents to the original process, or else to a process without a parent. -/
structure Descends (proc : Int → Option Int) (originalPid pid : Int) (chain : List Int × Bool) : Prop where
  head : chain.1.head? = some pid
  parents : chain.1.IsChain fun child parent => proc child = some parent
  before : originalPid ∉ chain.1.dropLast
  last : ∀ last ∈ chain.1.getLast?, if chain.2 then last = originalPid else proc last = none
  ended : chain.2 = true ↔ Relation.ReflTransGen (fun child parent => proc child = some parent) pid originalPid

/-- A process without a parent descends from itself only. -/
theorem descends_alone (alone : proc pid = none) : Descends proc originalPid pid ([pid], pid = originalPid) where
  head := rfl
  parents := List.isChain_singleton pid
  before := List.not_mem_nil
  last last known := by
    cases known
    by_cases same : pid = originalPid
    · simp [same]
    · simpa [same] using alone
  ended := by
    simp only [decide_eq_true_eq]
    constructor
    · rintro rfl
      exact .refl
    · intro path
      rcases path.cases_head with same | ⟨parent, known, _⟩
      · exact same
      · rw [alone] at known
        contradiction

/-- The function `printChain` follows the parents of a snapshot. -/
theorem printChain_descends (parents : List Int) (reads : ReadsAll proc pid parents) :
    Descends proc originalPid pid (printChain originalPid pid parents) := by
  induction parents generalizing pid with
  | nil => exact descends_alone reads
  | cons ppid parents ih =>
      obtain ⟨parent, rest⟩ := reads
      unfold printChain
      by_cases same : pid = originalPid
      · rw [if_pos same]
        exact ⟨rfl, List.isChain_singleton pid, List.not_mem_nil, fun last known => by cases known; simpa using same,
          ⟨fun _ => same ▸ .refl, fun _ => rfl⟩⟩
      · rw [if_neg same]
        have later := ih rest
        generalize printChain originalPid ppid parents = chain at later
        obtain ⟨pids, ended⟩ := chain
        obtain ⟨head, linked, before, last, descends⟩ := later
        obtain ⟨tail, rfl⟩ := List.head?_eq_some_iff.mp head
        exact
          { head := rfl
            parents := List.isChain_cons_cons.mpr ⟨parent, linked⟩
            before := by
              simp only [List.dropLast_cons_cons, List.mem_cons, not_or]
              exact ⟨fun equal => same equal.symm, before⟩
            last := by simpa [List.getLast?_cons_cons] using last
            ended := by
              rw [descends]
              constructor
              · exact fun path => .head parent path
              · intro path
                rcases path.cases_head with equal | ⟨other, known, path⟩
                · exact absurd equal same
                · rw [parent] at known
                  exact Option.some.inj known ▸ path }

/-- The line of a chain begins with its process. -/
theorem head_printChain (parents : List Int) : (printChain originalPid pid parents).1.head? = some pid := by
  cases parents with
  | nil => rfl
  | cons ppid parents =>
      unfold printChain
      split <;> rfl

def Line.created? : Line → Option Int
  | .created pid => some pid
  | .chain _ _ | .deleted _ => none

/-- The first process that the lines report. -/
def firstCreated (lines : List Line) : Option Int := (lines.filterMap Line.created?).head?

theorem firstCreated_append {more : List Line} (known : firstCreated lines = some pid) :
    firstCreated (lines ++ more) = some pid := by
  obtain ⟨rest, same⟩ := List.head?_eq_some_iff.mp known
  rw [firstCreated, List.filterMap_append, same]
  rfl

/-- The variables `first` and `original_pid` keep the first process of the lines so far. -/
def Observer.Knows (state : Observer) (lines : List Line) : Prop :=
  if state.first then firstCreated lines = none else firstCreated lines = some state.originalPid

/-- Each chain among the lines is that of the process that the line in front of it reports. -/
def Chained (seen lines : List Line) (parents : Int → List Int) : Prop :=
  ∀ place pids ended, lines[place]? = some (.chain pids ended) → ∃ before pid originalPid,
    place = before + 1 ∧ lines[before]? = some (.created pid) ∧
      firstCreated (seen ++ lines) = some originalPid ∧ (pids, ended) = printChain originalPid pid (parents pid)

/-- The chains stay explained when lines follow that explain theirs. -/
theorem Chained.append {seen more : List Line} {parents : Int → List Int} (chained : Chained seen lines parents)
    (new : ∀ place pids ended, more[place]? = some (.chain pids ended) → ∃ before pid originalPid,
      place = before + 1 ∧ more[before]? = some (.created pid) ∧
        firstCreated (seen ++ (lines ++ more)) = some originalPid ∧
        (pids, ended) = printChain originalPid pid (parents pid)) : Chained seen (lines ++ more) parents := by
  intro place pids ended known
  rcases Nat.lt_or_ge place lines.length with earlier | later
  · rw [List.getElem?_append_left earlier] at known
    obtain ⟨before, pid, originalPid, rfl, reported, first, same⟩ := chained place pids ended known
    refine ⟨before, pid, originalPid, rfl, ?_, ?_, same⟩
    · rwa [List.getElem?_append_left (Nat.lt_of_succ_lt earlier)]
    · rw [← List.append_assoc]
      exact firstCreated_append first
  · rw [List.getElem?_append_right later] at known
    obtain ⟨before, pid, originalPid, behind, reported, first, same⟩ := new _ pids ended known
    refine ⟨lines.length + before, pid, originalPid, by omega, ?_, first, same⟩
    rwa [List.getElem?_append_right (Nat.le_add_right _ _), Nat.add_sub_cancel_left]

/-- The process that a turn reports is the original process from then on, unless there was one before. -/
theorem Observer.Knows.report {seen : List Line} (knows : state.Knows (seen ++ lines)) (pid : Int) :
    firstCreated (seen ++ (lines ++ [.created pid])) = some (if state.first then pid else state.originalPid) := by
  rw [← List.append_assoc]
  unfold Observer.Knows at knows
  split at knows
  · next fresh =>
      rw [firstCreated, List.head?_eq_none_iff] at knows
      rw [firstCreated, List.filterMap_append, knows, if_pos fresh]
      rfl
  · next old =>
      rw [if_neg old]
      exact firstCreated_append knows

/-- A turn of the loop reports a process with its chain, or nothing. -/
theorem createdTurn_chained {seen : List Line} {oldList newList : Buffer} {parents : Int → List Int}
    (cur : Observer × List Line) (knows : cur.1.Knows (seen ++ cur.2)) (chained : Chained seen cur.2 parents) (j : Nat) :
    (createdTurn oldList newList parents cur j).1.Knows (seen ++ (createdTurn oldList newList parents cur j).2) ∧
      Chained seen (createdTurn oldList newList parents cur j).2 parents := by
  obtain ⟨state, lines⟩ := cur
  unfold createdTurn
  split
  · generalize newList.list j = pid
    have first := knows.report pid
    simp only at first ⊢
    generalize (if state.first = true then pid else state.originalPid) = originalPid at first ⊢
    cases printed : printChain originalPid pid (parents pid) with
    | mk pids ended =>
        have now : firstCreated (seen ++ (lines ++ [.created pid, .chain pids ended])) = some originalPid := by
          rw [show lines ++ [.created pid, .chain pids ended] = lines ++ [.created pid] ++ [.chain pids ended] by simp,
            ← List.append_assoc]
          exact firstCreated_append first
        refine ⟨?_, chained.append fun place others flag known => ?_⟩
        · rw [Observer.Knows, if_neg Bool.false_ne_true]
          exact now
        · -- the chain is the second one of the two new lines
          match place with
          | 0 => simp at known
          | 1 =>
              cases known
              exact ⟨0, pid, originalPid, rfl, rfl, now, printed.symm⟩
          | place + 2 => simp at known
  · exact ⟨knows, chained⟩

/-- The loop over the new listing reports processes with their chains. -/
theorem foldl_createdTurn_chained {seen : List Line} {oldList newList : Buffer} {parents : Int → List Int}
    (turns : List Nat) (cur : Observer × List Line) (knows : cur.1.Knows (seen ++ cur.2))
    (chained : Chained seen cur.2 parents) :
    let next := turns.foldl (createdTurn oldList newList parents) cur
    next.1.Knows (seen ++ next.2) ∧ Chained seen next.2 parents := by
  induction turns generalizing cur with
  | nil => exact ⟨knows, chained⟩
  | cons j turns ih =>
      obtain ⟨now, more⟩ := createdTurn_chained cur knows chained j
      exact ih _ now more

/-- The loop over the old listing adds lines about ended processes. -/
theorem foldl_deletedTurn (oldList newList : Buffer) (turns : List Nat) (lines : List Line) :
    ∃ pids : List Int, turns.foldl (deletedTurn oldList newList) lines = lines ++ pids.map .deleted := by
  induction turns generalizing lines with
  | nil => exact ⟨[], by simp⟩
  | cons j turns ih =>
      obtain ⟨pids, same⟩ := ih (deletedTurn oldList newList lines j)
      rw [List.foldl_cons, same]
      unfold deletedTurn
      split
      · exact ⟨oldList.list j :: pids, by simp⟩
      · exact ⟨pids, rfl⟩

/-- A round explains its chains and remembers the original process. -/
theorem round_chained {seen : List Line} (knows : state.Knows seen) (round : Round) :
    (state.round round).1.Knows (seen ++ (state.round round).2) ∧
      Chained seen (state.round round).2 round.parents := by
  have turns := @foldl_createdTurn_chained seen state.oldList round.newList round.parents
    (List.range round.newList.len) (state, []) (by simpa using knows) nofun
  have shape : state.round round =
      let cur := (List.range round.newList.len).foldl (createdTurn state.oldList round.newList round.parents) (state, [])
      ({ cur.1 with oldList := round.newList },
        (List.range state.oldList.len).foldl (deletedTurn state.oldList round.newList) cur.2) := rfl
  rw [shape]
  generalize (List.range round.newList.len).foldl
    (createdTurn state.oldList round.newList round.parents) (state, []) = cur at turns ⊢
  obtain ⟨next, lines⟩ := cur
  obtain ⟨now, chained⟩ := turns
  obtain ⟨pids, same⟩ := foldl_deletedTurn state.oldList round.newList (List.range state.oldList.len) lines
  simp only [same]
  constructor
  · have ended : (pids.map Line.deleted).filterMap Line.created? = [] := by
      simp [List.filterMap_map, Function.comp_def, Line.created?]
    have silent : firstCreated (seen ++ (lines ++ pids.map .deleted)) = firstCreated (seen ++ lines) := by
      unfold firstCreated
      rw [← List.append_assoc, List.filterMap_append, ended, List.append_nil]
    unfold Observer.Knows at now ⊢
    rwa [silent]
  · refine chained.append fun place others flag known => ?_
    have mentioned := List.mem_of_getElem? known
    simp at mentioned

/-- The rounds of a run explain their chains by the first process of the whole run. -/
theorem run_chained (rounds : List Round) {seen : List Line} (knows : state.Knows seen) :
    List.Forall₂ (fun round lines => ∀ place pids ended, lines[place]? = some (.chain pids ended) →
        ∃ before pid originalPid, place = before + 1 ∧ lines[before]? = some (.created pid) ∧
          firstCreated (seen ++ (state.run rounds).flatten) = some originalPid ∧
          (pids, ended) = printChain originalPid pid (round.parents pid))
      rounds (state.run rounds) := by
  induction rounds generalizing state seen with
  | nil => exact .nil
  | cons round later ih =>
      obtain ⟨now, chained⟩ := round_chained knows round
      unfold Observer.run
      refine .cons ?_ ?_
      · intro place pids ended known
        obtain ⟨before, pid, originalPid, behind, reported, first, same⟩ := chained place pids ended known
        refine ⟨before, pid, originalPid, behind, reported, ?_, same⟩
        rw [List.flatten_cons, ← List.append_assoc]
        exact firstCreated_append first
      · rw [List.flatten_cons, ← List.append_assoc]
        exact ih now

/-- A process that the first process starts, and one that this process starts. -/
def childProc (pid : Int) : Option Int := if pid = 5 then some 1 else if pid = 6 then some 5 else none

/-- Both are new in this round. -/
def childRound : Round where
  listing := ⟨[1, 5, 6], by decide, by decide, by decide⟩
  malloc _ := 0
  parents pid := if pid = 5 then [1] else if pid = 6 then [5, 1] else []

end KernelStudio.ProcessObserver
