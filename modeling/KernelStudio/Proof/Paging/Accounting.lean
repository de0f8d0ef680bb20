/-
This file proves the accounts of the module with constant demand paging.
Each page is on one list or has been freed, and the counters differ by the pages on the lists.
-/

import KernelStudio.Proof.Paging.Ownership
import Mathlib.Data.List.Nodup

namespace KernelStudio.Paging

open Transition Sharing

/-- What constant demand paging adds to the sharing. -/
structure Demand (state : State) : Prop where
  running : state.crashed = false
  used : ∀ key data, state.privateData.get key = some data → key ∈ state.handles ∧ data.ptrToPagelist ≠ none
  counters : state.allocNumber - state.freeNumber = BitVec.ofNat 32 state.held.length
  owned : List.Perm (state.freed ++ state.held) (List.range state.pages)
  memory : state.pages ≤ state.freed.length + frames

variable {space : AddressSpace} {state next : State}

/-- An area that goes leaves the handles of the other mappings. -/
theorem mem_handles_erase {vma : Vma} (known : vma ∈ state.vmas) {key : Nat} (other : key ≠ vma.vmPrivateData)
    (handle : key ∈ state.handles) : key ∈ (state.vmas.erase vma).map Vma.vmPrivateData :=
  (List.mem_cons.mp ((handles_erase known).mem_iff.mp handle)).resolve_left other

/-- A recorded page is on one list more. -/
theorem held_recorded {key : Nat} {data : PrivateData} {list : List Page} (page : Page) (other : PrivateData)
    (live : state.privateData.get key = some data) (old : data.ptrToPagelist = some list)
    (new : other.ptrToPagelist = some (page :: list)) :
    List.Perm ((state.privateData.set key other).gather fun data => data.ptrToPagelist.getD [])
      (page :: state.held) := by
  have before := Store.gather_perm live fun data => data.ptrToPagelist.getD []
  have after := @Store.gather_set_perm _ _ _ other _ _ live fun data => data.ptrToPagelist.getD []
  rw [old] at before
  rw [new] at after
  exact after.trans (before.symm.cons page)

/-- A released list leaves the other lists. -/
theorem held_walked {key : Nat} {data : PrivateData} {list : List Page}
    (live : state.privateData.get key = some data) (old : data.ptrToPagelist = some list) :
    List.Perm state.held (list ++ (state.privateData.erase key).gather fun data => data.ptrToPagelist.getD []) := by
  have before := Store.gather_perm live fun data => data.ptrToPagelist.getD []
  rwa [old] at before

/-- Replaced private data stay in use. -/
theorem Demand.used_set (demand : Demand state) {key : Nat} {data other : PrivateData} {handles : List Nat}
    (live : state.privateData.get key = some data) (kept : ∀ known ∈ state.handles, known ∈ handles)
    (list : other.ptrToPagelist ≠ none) : ∀ known found, (state.privateData.set key other).get known = some found →
      known ∈ handles ∧ found.ptrToPagelist ≠ none := by
  intro known found now
  rw [Store.get_set live] at now
  split at now
  · next mine =>
      obtain rfl := Option.some.inj now
      exact ⟨mine ▸ kept key (demand.used key data live).1, list⟩
  · exact (demand.used known found now).imp_left (kept known)

/-- A call that changes only areas and reference counts keeps the accounts. -/
theorem Demand.keep (demand : Demand state) (held : next.held = state.held)
    (same : next = { state with privateData := next.privateData, vmas := next.vmas })
    (used : ∀ key data, next.privateData.get key = some data → key ∈ next.handles ∧ data.ptrToPagelist ≠ none) :
    Demand next where
  running := by
    rw [same]
    exact demand.running
  used := used
  counters := by
    rw [held, same]
    exact demand.counters
  owned := by
    rw [held, same]
    exact demand.owned
  memory := by
    rw [same]
    exact demand.memory

/-- A recorded page keeps the accounts. -/
theorem Demand.record (demand : Demand state) {key : Nat} {data other : PrivateData} {list : List Page}
    (live : state.privateData.get key = some data) (old : data.ptrToPagelist = some list)
    (new : other.ptrToPagelist = some (state.pages :: list)) (room : state.pages < state.freed.length + frames) :
    Demand { state with
      pages := state.pages + 1
      allocNumber := state.allocNumber + 1
      privateData := state.privateData.set key other } := by
  have more := held_recorded state.pages other live old new
  refine ⟨demand.running, demand.used_set live (fun _ => id) (by simp [new]), ?_, ?_, room⟩
  · have before := demand.counters
    change state.allocNumber + 1 - state.freeNumber = BitVec.ofNat 32 (List.length (Store.gather _ _))
    rw [more.length_eq, List.length_cons]
    bv_omega
  · change List.Perm (state.freed ++ Store.gather _ _) (List.range (state.pages + 1))
    rw [List.range_succ]
    calc List.Perm _ (state.freed ++ state.pages :: state.held) := more.append_left _
      List.Perm _ (state.pages :: (state.freed ++ state.held)) := List.perm_middle
      List.Perm _ (List.range state.pages ++ [state.pages]) :=
        (demand.owned.cons _).trans (List.perm_append_singleton _ _).symm

/-- A walked list keeps the accounts when its private data go with it. -/
theorem Demand.walk (demand : Demand state) {vma : Vma} {data : PrivateData} {list : List Page}
    (known : vma ∈ state.vmas) (live : state.privateData.get vma.vmPrivateData = some data)
    (old : data.ptrToPagelist = some list) (teardowns : List Teardown) :
    Demand { state with
      teardowns
      freed := state.freed ++ list
      freeNumber := state.freeNumber + BitVec.ofNat 32 list.length
      privateData := state.privateData.erase vma.vmPrivateData
      kfreed := vma.vmPrivateData :: state.kfreed
      vmas := state.vmas.erase vma } := by
  have fewer := held_walked live old
  have total := fewer.length_eq
  rw [List.length_append] at total
  refine ⟨demand.running, fun key data found => ?_, ?_, ?_, ?_⟩
  · rw [Store.get_erase] at found
    split at found
    · contradiction
    · next other => exact (demand.used key data found).imp_left (mem_handles_erase known other)
  · have before := demand.counters
    rw [total, BitVec.ofNat_add] at before
    change state.allocNumber - (state.freeNumber + BitVec.ofNat 32 list.length) =
      BitVec.ofNat 32 (List.length (Store.gather _ _))
    bv_omega
  · change List.Perm (state.freed ++ list ++ Store.gather _ _) (List.range state.pages)
    rw [List.append_assoc]
    exact (fewer.symm.append_left _).trans demand.owned
  · have room := demand.memory
    simp only [List.length_append]
    omega

/-- When the reference count is not one, another area remains. -/
theorem mem_handles_of_several (shared : Shared space state) {vma : Vma} {data : PrivateData}
    (known : vma ∈ state.vmas) (live : state.privateData.get vma.vmPrivateData = some data)
    (several : data.reference ≠ 1) : vma.vmPrivateData ∈ (state.vmas.erase vma).map Vma.vmPrivateData := by
  have count := (shared.counted.perm (handles_erase known)).get live
  change data.reference.toNat = List.count _ (List.map _ _) + 1 at count
  refine List.count_pos_iff.mp (Nat.pos_of_ne_zero fun none => several ?_)
  exact BitVec.eq_of_toNat_eq (by rw [count, none]; rfl)

/-- Each call keeps the accounts. -/
theorem demand_effect {event : PagingEvent} (shared : Shared space state) (demand : Demand state)
    (admitted : steady 1 state event) (effect : Effect space state event next) : Demand next := by
  obtain ⟨value, success⟩ := admitted
  cases effect with
  | write value => exact { demand with }
  | nullData => exact absurd success.1 (by simp)
  | refused block off _ => exact absurd (value.symm.trans off) (by decide)
  | prepaged address vma _ off _ _ => exact absurd (value.symm.trans off) (by decide)
  | mapped vma own _ _ =>
      refine demand.keep (by simp [State.held]) rfl fun key data found => ?_
      rw [Store.get_insert] at found
      split at found
      · next new =>
          obtain rfl := Option.some.inj found
          exact ⟨by simp [State.handles, own, new], Option.some_ne_none _⟩
      · exact (demand.used key data found).imp_left (List.mem_cons_of_mem _)
  | dangling vma _ known gone =>
      obtain ⟨data, live, _⟩ := shared.counted _ (List.mem_map_of_mem known)
      simp [gone] at live
  | noPage => exact absurd success.1 (by simp)
  | remapFails data _ _ _ _ => exact absurd success.2.1 (by decide)
  | recorded data list known live old _ room => exact demand.record live old rfl room
  | unrecorded data _ live _ failed =>
      rcases failed with failed | none
      · exact absurd (success.2.2.symm.trans failed) (by decide)
      · exact absurd none (demand.used _ _ live).2
  | opened data known live opens =>
      refine demand.keep (Store.gather_set_of_eq live rfl) rfl (demand.used_set live (fun key handle => ?_) ?_)
      · have listed := (handles_erase known).mem_iff.mp handle
        rw [State.handles, List.map_cons, List.map_cons, opens.1, opens.2.1]
        exact List.mem_cons_of_mem _ listed
      · exact (demand.used _ data live).2
  | @closed vma data known live several =>
      refine demand.keep (Store.gather_set_of_eq live rfl) rfl (demand.used_set live (fun key handle => ?_) ?_)
      · by_cases mine : key = vma.vmPrivateData
        · exact mine ▸ mem_handles_of_several shared known live several
        · exact mem_handles_erase known mine handle
      · exact (demand.used _ data live).2
  | lost data _ live _ _ old => exact absurd old (demand.used _ _ live).2
  | walked data list known live _ _ old => exact demand.walk known live old _
  | freed data _ _ _ off => exact absurd (value.symm.trans off) (by decide)

/-- The claims of ownership that constant demand paging keeps. -/
structure Accounted (state : State) : Prop where
  running : state.crashed = false
  reference : ∀ key data, state.privateData.get key = some data →
    data.reference.toNat = state.vmas.countP fun vma => vma.vmPrivateData = key
  counters : (state.allocNumber - state.freeNumber).toNat = state.held.length
  /-- Each page that was allocated is on one list once, or it was freed once. -/
  owned : ∀ page < state.pages, state.held.count page + state.freed.count page = 1
  /-- Only allocated pages are on lists or were freed. -/
  allocated : ∀ page ∈ state.held ++ state.freed, page < state.pages
  live : ∀ vma ∈ state.vmas, (state.privateData.get vma.vmPrivateData).isSome
  /-- The private data are freed once, but not while an area points to them. -/
  freedOnce : ∀ key < state.privateData.size,
    state.kfreed.count key = if ∃ vma ∈ state.vmas, vma.vmPrivateData = key then 0 else 1
  finished : state.vmas = [] → state.allocNumber = state.freeNumber ∧
    ∀ page < state.pages, state.freed.count page = 1

/-- Without live private data no list holds a page. -/
theorem Demand.held_nil (demand : Demand state) (none : state.vmas = []) : state.held = [] := by
  refine List.eq_nil_iff_forall_not_mem.mpr fun page known => ?_
  obtain ⟨key, data, live, _⟩ := Store.mem_gather.mp known
  have handle := (demand.used key data live).1
  simp [State.handles, none] at handle

/-- The sharing and the accounts together give the claims. -/
theorem Demand.accounted (shared : Shared space state) (demand : Demand state) : Accounted state := by
  have total := demand.owned.length_eq
  have room := demand.memory
  rw [List.length_append, List.length_range] at total
  have owned (page : Page) (allocated : page < state.pages) :
      state.held.count page + state.freed.count page = 1 := by
    rw [Nat.add_comm, ← List.count_append, demand.owned.count_eq]
    exact List.nodup_iff_count_eq_one.mp List.nodup_range _ (List.mem_range.mpr allocated)
  have counters : (state.allocNumber - state.freeNumber).toNat = state.held.length := by
    rw [demand.counters, BitVec.toNat_ofNat]
    exact Nat.mod_eq_of_lt (by unfold frames at room; omega)
  refine ⟨demand.running, fun key data live => ?_, counters, owned, fun page known => ?_, fun vma known => ?_,
    fun key inside => ?_, fun none => ⟨?_, fun page allocated => ?_⟩⟩
  · obtain ⟨found, now, count⟩ := shared.counted key (demand.used key data live).1
    rw [live, Option.some.injEq] at now
    subst now
    refine count.trans ?_
    rw [State.handles, List.count, List.countP_map]
    rfl
  · rw [← List.mem_range, ← demand.owned.mem_iff]
    exact (List.perm_append_comm.mem_iff).mp known
  · obtain ⟨data, live, _⟩ := shared.counted _ (List.mem_map_of_mem known)
    rw [live, Option.isSome_some]
  · rw [shared.released key]
    by_cases handle : ∃ vma ∈ state.vmas, vma.vmPrivateData = key
    · obtain ⟨data, live, _⟩ := shared.counted key (List.mem_map.mpr handle)
      rw [if_pos handle, if_neg (by simp [live])]
    · have gone : state.privateData.get key = none := Option.eq_none_iff_forall_ne_some.mpr fun data live =>
        handle (List.mem_map.mp (demand.used key data live).1)
      rw [if_neg handle, if_pos ⟨inside, gone⟩]
  · rw [demand.held_nil none] at counters
    rw [List.length_nil] at counters
    bv_omega
  · have once := owned page allocated
    rwa [demand.held_nil none, List.count_nil, Nat.zero_add] at once

theorem demand_initial (demandPaging : BitVec 32) : Demand { demandPaging } where
  running := rfl
  used := nofun
  counters := by simp [State.held]
  owned := .refl _
  memory := Nat.zero_le _

/-- With constant demand paging and calls that succeed, each run keeps the claims of ownership. -/
theorem accounted_reached (space : AddressSpace) {state : State}
    (reached : (paging space).Reaches (steady 1) state) : Accounted state := by
  suffices both : Shared space state ∧ Demand state from both.2.accounted both.1
  refine reached.invariant (fun state => Shared space state ∧ Demand state) ?_ ?_
  · rintro _ ⟨demandPaging, rfl⟩
    exact ⟨shared_initial demandPaging, demand_initial demandPaging⟩
  · rintro state event next _ ⟨shared, demand⟩ admitted taken
    obtain ⟨_, effect⟩ := step_effect taken
    have kept := demand_effect shared demand admitted effect
    exact ⟨shared_effect shared effect kept.running, kept⟩

/-- One mapping is split after a fault and unmapped in two parts, and a second one stays mapped. -/
def splitEvents : List PagingEvent :=
  [.mmap 0x1000 0x3000 true (some 0xC0000000) 0, .fault ⟨0x1000, 0x3000, 0⟩ 0x1800 true 0 true,
    .vmaOpen ⟨0x1000, 0x3000, 0⟩ ⟨0x1000, 0x2000, 0⟩ ⟨0x2000, 0x3000, 0⟩,
    .mmap 0x5000 0x6000 true (some 0xC0000000) 0, .fault ⟨0x5000, 0x6000, 1⟩ 0x5000 true 0 true,
    .fault ⟨0x2000, 0x3000, 0⟩ 0x2000 true 0 true, .vmaClose ⟨0x1000, 0x2000, 0⟩, .vmaClose ⟨0x2000, 0x3000, 0⟩]

/-- The pages of the first mapping are freed, and the page of the second one is on its list. -/
theorem accounted_reached_split : ∃ state : State, state.vmas = [⟨0x5000, 0x6000, 1⟩] ∧ state.pages = 3 ∧
    state.freed = [2, 0] ∧ state.kfreed = [0] ∧ Accounted state := by
  have initial : (paging arm).start { demandPaging := 1 } := ⟨1, rfl⟩
  have admitted : (paging arm).admits (steady 1) { demandPaging := 1 } splitEvents = true := by decide +kernel
  have executed : ((paging arm).execute { demandPaging := 1 } splitEvents).map
      (fun state => (state.vmas, state.pages, state.freed, state.kfreed)) =
        some ([⟨0x5000, 0x6000, 1⟩], 3, [2, 0], [0]) := by decide +kernel
  obtain ⟨state, reached, shown⟩ := Machine.admits_shows initial splitEvents admitted _ executed
  simp only [Prod.mk.injEq] at shown
  exact ⟨state, shown.1, shown.2.1, shown.2.2.1, shown.2.2.2, accounted_reached arm reached⟩

end KernelStudio.Paging
