/-
This file connects the private data of a mapping with what has happened to the mapping.
It also shows that the order loop finds the least block for the length of an area.
-/

import KernelStudio.Proof.Paging.Ownership
import Mathlib.Data.List.Nodup

namespace KernelStudio.Paging

open Transition Sharing

/-- The loop stops at the first power of two that is large enough. -/
theorem orderLoop_spec {pageNum fuel order : Nat} (enough : pageNum ≤ 2 ^ (order + fuel)) :
    pageNum ≤ 2 ^ orderLoop pageNum fuel order ∧
      ∀ smaller, order ≤ smaller → smaller < orderLoop pageNum fuel order → 2 ^ smaller < pageNum := by
  induction fuel generalizing order with
  | zero => exact ⟨enough, fun smaller above below => absurd below (Nat.not_lt.mpr above)⟩
  | succ fuel ih =>
      rw [orderLoop, Nat.one_shiftLeft]
      split
      · next small =>
          obtain ⟨covers, least⟩ := @ih (order + 1) (by rwa [Nat.add_right_comm])
          refine ⟨covers, fun smaller above below => ?_⟩
          rcases Nat.eq_or_lt_of_le above with rfl | later
          · exact small
          · exact least smaller later below
      · next large => exact ⟨Nat.le_of_not_lt large, fun smaller above below => absurd below (Nat.not_lt.mpr above)⟩

/-- The page count is the length divided by the page size, rounded up. -/
theorem pageNum_le_iff {length count : Nat} : pageNum length ≤ count ↔ length ≤ count * pageSize := by
  unfold pageNum pageSize
  split <;> omega

/-- The order of an area is the least one whose pages cover the area. -/
theorem isLeast_orderOf {vma : Vma} (word : vma.vmEnd - vma.vmStart < 2 ^ 32) :
    IsLeast {order | vma.vmEnd - vma.vmStart ≤ 2 ^ order * pageSize} (orderOf vma) := by
  rw [orderOf, Nat.mod_eq_of_lt word]
  obtain ⟨covers, least⟩ := @orderLoop_spec (pageNum (vma.vmEnd - vma.vmStart)) 32 0
    (pageNum_le_iff.mpr (by unfold pageSize; omega))
  refine ⟨pageNum_le_iff.mp covers, fun order enough => ?_⟩
  by_contra below
  exact Nat.not_lt.mpr (pageNum_le_iff.mpr enough) (least order (Nat.zero_le _) (Nat.lt_of_not_le below))

/-- The private data of a mapping with areas: demand paging has initialised the list, on which all pages are but
those whose remapping failed, and prepaging has obtained the least block for the length. -/
inductive Recorded (space : AddressSpace) (data : PrivateData) : Prop where
  | demand (list leaked : List Page) : data.ptrToPagelist = some list → data.mapping.demandPaging ≠ 0 →
      data.mapping.block = none → data.mapping.obtained.Perm (list ++ leaked) →
      leaked.length = data.mapping.failedRemaps → Recorded space data
  | prepaged (block : Block) : data.ptrToPagelist = none → data.mapping.demandPaging = 0 →
      data.mapping.block = some block → space.pageOffset ≤ block.address →
      IsLeast {order | data.mapping.length ≤ 2 ^ order * pageSize} block.order →
      data.mapping.obtained = [] → data.mapping.failedRemaps = 0 → Recorded space data

variable {space : AddressSpace} {state next : State} {data other : PrivateData}

/-- The record does not depend on the reference count. -/
theorem Recorded.count (recorded : Recorded space data) (reference : BitVec 32) :
    Recorded space { data with reference } := by
  cases recorded with
  | demand list leaked initialised mode block pages fails =>
      exact .demand list leaked initialised mode block pages fails
  | prepaged block list mode obtained kernel least pages fails =>
      exact .prepaged block list mode obtained kernel least pages fails

/-- A fault whose remapping fails leaks its page. -/
theorem Recorded.leak (recorded : Recorded space data) (unmapped : data.mapping.block = none) (page : Page) :
    Recorded space { data with mapping := { data.mapping with
      obtained := page :: data.mapping.obtained, failedRemaps := data.mapping.failedRemaps + 1 } } := by
  cases recorded with
  | demand list leaked initialised mode block pages fails =>
      exact .demand list (page :: leaked) initialised mode block
        ((pages.cons page).trans List.perm_middle.symm) (congrArg (· + 1) fails)
  | prepaged block _ _ obtained _ _ _ _ => simp [obtained] at unmapped

/-- A fault that succeeds puts its page on the list. -/
theorem Recorded.record (recorded : Recorded space data) {list : List Page} (old : data.ptrToPagelist = some list)
    (page : Page) : Recorded space { data with
      ptrToPagelist := some (page :: list)
      mapping := { data.mapping with obtained := page :: data.mapping.obtained } } := by
  cases recorded with
  | demand known leaked initialised mode block pages fails =>
      obtain rfl := Option.some.inj (initialised.symm.trans old)
      exact .demand (page :: known) leaked rfl mode block (pages.cons page) fails
  | prepaged _ none _ _ _ _ _ _ => simp [old] at none

/-- The pages in use are different, and each of them was allocated before. -/
def Distinct (used : List Page) (pages : Nat) : Prop := used.Nodup ∧ ∀ page ∈ used, page < pages

theorem Distinct.sub {used fewer : List Page} {pages : Nat} (distinct : Distinct used pages)
    (part : fewer.Subperm used) : Distinct fewer pages := by
  obtain ⟨middle, same, inside⟩ := part
  exact ⟨same.nodup_iff.mp (inside.nodup distinct.1), fun page known =>
    distinct.2 page (inside.subset (same.mem_iff.mpr known))⟩

/-- A new page differs from the older ones. -/
theorem Distinct.fresh {used more : List Page} {pages : Nat} (distinct : Distinct used pages)
    (new : more.Perm (pages :: used)) : Distinct more (pages + 1) := by
  refine ⟨new.nodup_iff.mpr (List.nodup_cons.mpr ⟨fun known => ?_, distinct.1⟩), fun page known => ?_⟩
  · exact Nat.lt_irrefl _ (distinct.2 _ known)
  · rcases List.mem_cons.mp (new.mem_iff.mp known) with rfl | old
    · exact Nat.lt_succ_self _
    · exact Nat.lt_succ_of_lt (distinct.2 page old)

/-- The pages that the faults of live mappings have obtained. -/
def State.obtained (state : State) : List Page := state.privateData.gather fun data => data.mapping.obtained

/-- The private data of all areas agree with their records, and no page belongs to two mappings or is used after it
was freed. -/
structure Recording (space : AddressSpace) (state : State) : Prop where
  mapping : ∀ key ∈ state.handles, ∀ data, state.privateData.get key = some data → Recorded space data
  distinct : Distinct (state.freed ++ state.obtained) state.pages
  user : ∀ block ∈ state.freedBlocks, block.address < space.taskSize

theorem recording_initial (demandPaging : BitVec 32) : Recording space { demandPaging } where
  mapping := nofun
  distinct := by simp [Distinct, State.obtained]
  user := nofun

/-- New private data of one mapping leave the others alone. -/
theorem Recording.mapping_set (recording : Recording space state) {key : Nat} {handles : List Nat}
    (live : state.privateData.get key = some data) (recorded : Recorded space other)
    (older : ∀ known ∈ handles, known ∈ state.handles) :
    ∀ known ∈ handles, ∀ found, (state.privateData.set key other).get known = some found → Recorded space found := by
  intro known handle found now
  rw [Store.get_set live] at now
  split at now
  · exact Option.some.inj now ▸ recorded
  · exact recording.mapping known (older known handle) found now

/-- A new mapping leaves the others alone. -/
theorem Recording.mapping_insert (recording : Recording space state) {handles : List Nat}
    (recorded : state.privateData.size ∈ handles → Recorded space other)
    (older : ∀ known ∈ handles, known = state.privateData.size ∨ known ∈ state.handles) :
    ∀ known ∈ handles, ∀ found, (state.privateData.insert other).get known = some found → Recorded space found := by
  intro known handle found now
  rw [Store.get_insert] at now
  split at now
  · next new => exact Option.some.inj now ▸ recorded (new ▸ handle)
  · next old => exact recording.mapping known ((older known handle).resolve_left old) found now

/-- A page that a fault obtains is new to all mappings. -/
theorem Recording.fault (recording : Recording space state) {key : Nat}
    (live : state.privateData.get key = some data)
    (new : other.mapping.obtained = state.pages :: data.mapping.obtained) :
    Distinct (state.freed ++ (state.privateData.set key other).gather fun data => data.mapping.obtained)
      (state.pages + 1) := by
  have before := Store.gather_perm live fun data => data.mapping.obtained
  have after := @Store.gather_set_perm _ _ _ other _ _ live fun data => data.mapping.obtained
  rw [new] at after
  refine recording.distinct.fresh ?_
  calc List.Perm _ (state.freed ++ state.pages :: state.obtained) :=
        (after.trans (before.symm.cons state.pages)).append_left _
    List.Perm _ _ := List.perm_middle

/-- A new reference count leaves the pages of the mapping. -/
theorem Recording.recount (recording : Recording space state) {key : Nat}
    (live : state.privateData.get key = some data) (reference : BitVec 32) :
    Distinct (state.freed ++ (state.privateData.set key { data with reference }).gather fun data =>
      data.mapping.obtained) state.pages := by
  rw [@Store.gather_set_of_eq _ _ _ { data with reference } _ _ live _ rfl]
  exact recording.distinct

/-- A new mapping brings its own record. -/
theorem Recording.create (recording : Recording space state) {vma : Vma}
    (own : vma.vmPrivateData = state.privateData.size) (fresh : data.mapping.obtained = [])
    (recorded : Recorded space data) :
    Recording space { state with privateData := state.privateData.insert data, vmas := vma :: state.vmas } where
  mapping := recording.mapping_insert (fun _ => recorded) fun key handle => by
    rwa [State.handles, List.map_cons, List.mem_cons, own] at handle
  distinct := by
    rw [State.obtained, Store.gather_insert, fresh, List.append_nil]
    exact recording.distinct
  user := recording.user

/-- A mapping that goes takes its pages with it. -/
theorem Recording.erase (recording : Recording space state) {vma : Vma} (known : vma ∈ state.vmas)
    (live : state.privateData.get vma.vmPrivateData = some data) {released leaked : List Page}
    (pages : data.mapping.obtained.Perm (released ++ leaked)) :
    (∀ key ∈ (state.vmas.erase vma).map Vma.vmPrivateData, ∀ found,
      (state.privateData.erase vma.vmPrivateData).get key = some found → Recorded space found) ∧
    Distinct (state.freed ++ released ++
      (state.privateData.erase vma.vmPrivateData).gather fun data => data.mapping.obtained) state.pages := by
  constructor
  · intro key handle found now
    rw [Store.get_erase] at now
    split at now
    · contradiction
    · exact recording.mapping key ((handles_erase known).mem_iff.mpr (List.mem_cons_of_mem _ handle)) found now
  · have all := Store.gather_perm live fun data => data.mapping.obtained
    have split := all.trans (pages.append_right _)
    refine (recording.distinct.sub (List.Perm.subperm (split.append_left _).symm)).sub ?_
    rw [List.append_assoc, List.append_assoc]
    exact (((List.sublist_append_right leaked _).append_left released).append_left state.freed).subperm

/-- Each effect keeps the records, unless the module crashes. -/
theorem recording_effect {event : PagingEvent} (shared : Shared space state) (recording : Recording space state)
    (effect : Effect space state event next) (running : next.crashed = false) : Recording space next := by
  cases effect with
  | write value => exact { recording with }
  | nullData => contradiction
  | refused block _ _ =>
      have unused : state.privateData.size ∉ state.handles := fun handle =>
        Nat.lt_irrefl _ (shared.counted.lt_size handle)
      refine { recording with mapping := ?_, distinct := ?_ }
      · exact recording.mapping_insert (fun handle => absurd handle unused) fun _ => .inr
      · rw [State.obtained, Store.gather_insert, State.record, List.append_nil]
        exact recording.distinct
  | prepaged address vma own mode placed kernel =>
      have word := space.userBelowKernel.trans_lt space.fits
      have length : vma.vmEnd - vma.vmStart < 2 ^ 32 := by
        have user := placed.2
        omega
      subst own
      exact recording.create rfl rfl (.prepaged _ rfl mode rfl kernel (isLeast_orderOf length) rfl rfl)
  | mapped vma own mode placed =>
      exact recording.create (congrArg _ own) rfl (.demand [] [] rfl mode rfl (.refl _) rfl)
  | dangling vma _ _ _ => contradiction
  | noPage => exact recording
  | remapFails data known live unmapped _ =>
      have recorded := recording.mapping _ (List.mem_map_of_mem known) data live
      exact
        { mapping := recording.mapping_set live (recorded.leak unmapped state.pages) fun _ => id
          distinct := recording.fault live rfl
          user := recording.user }
  | recorded data list known live old _ _ =>
      have recorded := recording.mapping _ (List.mem_map_of_mem known) data live
      exact
        { mapping := recording.mapping_set live (recorded.record old state.pages) fun _ => id
          distinct := recording.fault live rfl
          user := recording.user }
  | unrecorded data _ _ _ _ => contradiction
  | @opened vma kept further data known live opens =>
      have handle := List.mem_map_of_mem (f := Vma.vmPrivateData) known
      have recorded := recording.mapping _ handle data live
      refine { recording with mapping := ?_, distinct := recording.recount live _ }
      refine recording.mapping_set live (recorded.count _) fun key listed => ?_
      rw [State.handles, List.map_cons, List.map_cons, opens.1, opens.2.1, List.mem_cons,
        ← (handles_erase known).mem_iff] at listed
      exact listed.elim (fun same => same ▸ handle) id
  | closed data known live _ =>
      have recorded := recording.mapping _ (List.mem_map_of_mem known) data live
      refine { recording with mapping := ?_, distinct := recording.recount live _ }
      exact recording.mapping_set live (recorded.count _) fun key listed =>
        (handles_erase known).mem_iff.mpr (List.mem_cons_of_mem _ listed)
  | lost data _ _ _ _ _ => contradiction
  | walked data list known live _ _ old =>
      cases recording.mapping _ (List.mem_map_of_mem known) data live with
      | demand known' leaked initialised _ _ pages _ =>
          obtain rfl := Option.some.inj (initialised.symm.trans old)
          obtain ⟨mapping, distinct⟩ := recording.erase known live pages
          exact { recording with mapping, distinct }
      | prepaged _ none _ _ _ _ _ _ => simp [old] at none
  | @freed vma data known live _ _ =>
      obtain ⟨mapping, distinct⟩ := @Recording.erase _ _ _ recording _ known live [] data.mapping.obtained (.refl _)
      rw [List.append_nil] at distinct
      refine { recording with mapping, distinct, user := List.forall_mem_cons.mpr ⟨?_, recording.user⟩ }
      have placed := shared.placed vma known
      exact placed.1.trans_le placed.2

/-- The records are right in all runs up to a crash. -/
theorem recording_reached {guard : Guard State PagingEvent} (reached : (paging space).Reaches guard state)
    (running : state.crashed = false) : Recording space state := by
  refine reached.invariant (fun state => state.crashed = false → Recording space state) ?_ ?_ running
  · rintro _ ⟨demandPaging, rfl⟩ _
    exact recording_initial demandPaging
  · intro state event next before recording _ taken running
    obtain ⟨ran, effect⟩ := step_effect taken
    exact recording_effect (shared_reached before ran) (recording ran) effect running

end KernelStudio.Paging
