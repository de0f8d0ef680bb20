/-
This file proves when the release loop of `paging_vma_close` touches live cells only.
On an allocator that leaves freed cells alone, the loop releases the page list of the paging machine.
-/

import KernelStudio.Construction.Paging.PageList

namespace KernelStudio.Paging.PageList

open LinkedList

variable {memory : Memory} {first : Link} {chain : List (Nat × Page)}

/-- Each fault puts its cell in front of the page list. -/
theorem listAdd_chain (linked : Chain memory.heap first chain) {cell : Nat} (fresh : cell ∉ chain.map Prod.fst)
    (aPage : Page) :
    Chain (listAdd memory first cell aPage).1.heap (listAdd memory first cell aPage).2 ((cell, aPage) :: chain) :=
  linked.prepend fresh aPage

/-- The walk has ended at the head without a lost read, and has freed each page and each cell of the list once. -/
structure Released (memory : Memory) (chain : List (Nat × Page)) (after : Memory × WalkEnd) : Prop where
  ended : after.2 = .head
  pages : after.1.freed = memory.freed ++ chain.map Prod.snd
  cells : after.1.kfreed = memory.kfreed ++ chain.map Prod.fst
  counted : after.1.freeNumber = memory.freeNumber + BitVec.ofNat 32 chain.length

/-- The first round of a list that is not empty ends at the cell that it has freed. -/
theorem releaseLoop_lost {id : Nat} {aPage : Page} {rest : List (Nat × Page)}
    (linked : Chain memory.heap first ((id, aPage) :: rest)) (rounds : Nat) :
    releaseLoop liveNext (rounds + 1) first memory = (memory.release id aPage, .lost id) := by
  obtain ⟨rfl, next, stored, _⟩ := linked
  simp [releaseLoop, stored, liveNext, Memory.release]

/-- The release loop touches live cells only, and releases the whole list, exactly when the list is empty. -/
theorem released_iff (linked : Chain memory.heap first chain) (rounds : Nat) (enough : chain.length ≤ rounds) :
    Released memory chain (releaseLoop liveNext rounds first memory) ↔ chain = [] := by
  cases chain with
  | nil =>
      obtain rfl : first = .head := linked
      simp only [iff_true]
      have ended : releaseLoop liveNext rounds .head memory = (memory, .head) := by cases rounds <;> rfl
      rw [ended]
      exact ⟨rfl, (List.append_nil _).symm, (List.append_nil _).symm, by simp⟩
  | cons entry rest =>
      obtain ⟨more, rfl⟩ := Nat.exists_eq_add_of_le' enough
      simp only [reduceCtorEq, iff_false]
      intro released
      have ended := released.ended
      rw [List.length_cons, ← Nat.add_assoc, releaseLoop_lost linked] at ended
      cases ended

/-- The list of a mapping that took no fault is released. -/
theorem released_empty : Released ⟨fun _ => none, [], [], 0⟩ []
    (releaseLoop liveNext 1 .head ⟨fun _ => none, [], [], 0⟩) := by
  have linked : Chain (fun _ => none : Heap Page) .head [] := rfl
  exact (released_iff linked 1 (by decide)).2 rfl

/-- The loop reads the link of the only cell of a list after it has freed the cell. -/
theorem one_page_lost :
    ¬ ∀ (memory : Memory) (first : Link) (chain : List (Nat × Page)), Chain memory.heap first chain →
      ∀ rounds, chain.length ≤ rounds → Released memory chain (releaseLoop liveNext rounds first memory) := by
  intro released
  let loaded : Memory := ⟨fun _ => none, [], [], 0⟩
  let faulted := listAdd loaded .head 0 7
  have empty : Chain loaded.heap .head [] := rfl
  have linked : Chain faulted.1.heap faulted.2 [(0, 7)] := listAdd_chain empty (by simp) 7
  have ended := (released faulted.1 faulted.2 [(0, 7)] linked 1 (by decide)).ended
  exact absurd ended (by decide)

/-- On an allocator that leaves freed cells alone, the loop releases a list of any length. -/
theorem released_stale {before : Heap Page} (linked : Chain before first chain)
    (distinct : (chain.map Prod.fst).Nodup)
    (same : ∀ id ∈ chain.map Prod.fst, memory.heap id = before id) (rounds : Nat) (enough : chain.length ≤ rounds) :
    Released memory chain (releaseLoop (staleNext before) rounds first memory) := by
  induction chain generalizing memory first rounds with
  | nil =>
      obtain rfl : first = .head := linked
      have ended : releaseLoop (staleNext before) rounds .head memory = (memory, .head) := by cases rounds <;> rfl
      rw [ended]
      exact ⟨rfl, (List.append_nil _).symm, (List.append_nil _).symm, by simp⟩
  | cons entry rest inductionHypothesis =>
      obtain ⟨id, aPage⟩ := entry
      obtain ⟨rfl, next, stored, later⟩ := linked
      obtain ⟨more, rfl⟩ := Nat.exists_eq_add_of_le' enough
      obtain ⟨other, restDistinct⟩ := List.nodup_cons.1 distinct
      have live : memory.heap id = some ⟨aPage, next⟩ := (same id (List.mem_cons_self ..)).trans stored
      have restSame : ∀ cell ∈ rest.map Prod.fst, (memory.release id aPage).heap cell = before cell := by
        intro cell member
        have different : cell ≠ id := fun equal => other (equal ▸ member)
        exact (memory.heap.erase_other different).trans (same cell (List.mem_cons_of_mem _ member))
      have step : releaseLoop (staleNext before) (more + (rest.length + 1)) (.cell id) memory =
          releaseLoop (staleNext before) (more + rest.length) next (memory.release id aPage) := by
        rw [← Nat.add_assoc, releaseLoop, live]
        simp only [staleNext, stored, Option.map_some]
      have released := inductionHypothesis later restDistinct restSame (more + rest.length) (Nat.le_add_left ..)
      rw [List.length_cons, step]
      refine ⟨released.ended, ?_, ?_, ?_⟩
      · rw [released.pages]
        simp [Memory.release]
      · rw [released.cells]
        simp [Memory.release]
      · rw [released.counted, List.length_cons, Nat.add_comm rest.length 1, BitVec.ofNat_add, ← BitVec.add_assoc]
        rfl

/-- On such an allocator, the last close of the paging machine returns what the loop has released. -/
theorem pagingVmaClose_releases {state : State} {vma : Vma} {data : PrivateData} (last : data.reference = 1)
    (demand : state.demandPaging ≠ 0) (list : data.ptrToPagelist = some (chain.map Prod.snd))
    (linked : Chain memory.heap first chain) (distinct : (chain.map Prod.fst).Nodup)
    (freed : memory.freed = state.freed) (counted : memory.freeNumber = state.freeNumber) :
    let after := releaseLoop (staleNext memory.heap) chain.length first memory
    after.1.freed = (pagingVmaClose state vma data).freed ∧
      after.1.freeNumber = (pagingVmaClose state vma data).freeNumber := by
  have released := released_stale linked distinct (fun _ _ => rfl) chain.length (Nat.le_refl _)
  have dropped : data.reference - 1 = 0 := by rw [last]; rfl
  simp only [pagingVmaClose, if_pos dropped, if_pos demand, list]
  exact ⟨released.pages.trans (congrArg (· ++ _) freed), by rw [released.counted, counted, List.length_map]⟩

end KernelStudio.Paging.PageList
