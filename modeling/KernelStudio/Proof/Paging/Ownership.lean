/-
This file proves who owns the private data and the pages of the paging module.
The reference counts are right in all runs, and with constant demand paging the page lists account for all pages.
-/

import KernelStudio.Proof.Paging.Effect
import Mathlib.Data.List.Perm.Subperm

namespace KernelStudio.Paging

open Transition Sharing

/-- The areas name the private data that they share. -/
def State.handles (state : State) : List Nat := state.vmas.map Vma.vmPrivateData

def PrivateData.references (data : PrivateData) : Nat := data.reference.toNat

/-- The pages on all page lists. -/
def State.held (state : State) : List Page := state.privateData.gather fun data => data.ptrToPagelist.getD []

variable {space : AddressSpace} {state next : State}

theorem Vma.Apart.symm {vma other : Vma} (apart : vma.Apart other) : other.Apart vma :=
  fun same => (apart same.symm).symm

/-- The areas of one mapping start at different user addresses, so a 32-bit reference counts them all. -/
theorem count_handles_le {vmas : List Vma} (placed : ∀ vma ∈ vmas, vma.Placed space)
    (apart : vmas.Pairwise Vma.Apart) (key : Nat) : (vmas.map Vma.vmPrivateData).count key ≤ space.taskSize := by
  let own := vmas.filter fun vma => vma.vmPrivateData == key
  have listed (vma : Vma) (known : vma ∈ own) : vma ∈ vmas ∧ vma.vmPrivateData = key := by
    simpa [own] using known
  have starts : (own.map Vma.vmStart).Nodup := by
    refine List.pairwise_map.mpr ((apart.filter _).imp_of_mem fun {a b} left right separate same => ?_)
    have shared := (listed a left).2.trans (listed b right).2.symm
    have first := placed a (listed a left).1
    have second := placed b (listed b right).1
    rcases separate shared with before | after
    · exact absurd first.1 (by omega)
    · exact absurd second.1 (by omega)
  have inside : own.map Vma.vmStart ⊆ List.range space.taskSize := by
    intro start known
    obtain ⟨vma, mine, rfl⟩ := List.mem_map.mp known
    obtain ⟨nonempty, user⟩ := placed vma (listed vma mine).1
    exact List.mem_range.mpr (by omega)
  calc (vmas.map Vma.vmPrivateData).count key = own.length := by
        rw [List.count, List.countP_map, List.countP_eq_length_filter]
        rfl
    _ = (own.map Vma.vmStart).length := (List.length_map _).symm
    _ ≤ (List.range space.taskSize).length := (List.subperm_of_subset starts inside).length_le
    _ = space.taskSize := List.length_range

/-- The areas are placed apart, their private data count them, and `kfree` was called once for all others. -/
structure Shared (space : AddressSpace) (state : State) : Prop where
  placed : ∀ vma ∈ state.vmas, vma.Placed space
  apart : state.vmas.Pairwise Vma.Apart
  counted : Counted PrivateData.references state.handles state.privateData
  released : ReleasedOnce state.kfreed state.privateData

/-- An area that goes leaves a handle behind the others. -/
theorem handles_erase {vma : Vma} (known : vma ∈ state.vmas) :
    List.Perm state.handles (vma.vmPrivateData :: (state.vmas.erase vma).map Vma.vmPrivateData) :=
  (List.perm_cons_erase known).map Vma.vmPrivateData

/-- A mapping starts with one area and one reference. -/
theorem Shared.create (shared : Shared space state) {vma : Vma} {data : PrivateData}
    (own : vma.vmPrivateData = state.privateData.size) (placed : vma.Placed space) (one : data.reference = 1) :
    Shared space { state with privateData := state.privateData.insert data, vmas := vma :: state.vmas } where
  placed := List.forall_mem_cons.mpr ⟨placed, shared.placed⟩
  apart := by
    refine List.pairwise_cons.mpr ⟨fun other known same => ?_, shared.apart⟩
    have older := shared.counted.lt_size (List.mem_map_of_mem known)
    omega
  counted := by
    have created := shared.counted.create (show data.references = 1 by rw [PrivateData.references, one]; rfl)
    rwa [← own] at created
  released := shared.released.insert

/-- New contents with the same reference count leave the sharing alone. -/
theorem Shared.replace (shared : Shared space state) {key : Nat} {data other : PrivateData}
    (live : state.privateData.get key = some data) (vmas : next.vmas = state.vmas)
    (kfreed : next.kfreed = state.kfreed) (stored : next.privateData = state.privateData.set key other)
    (same : other.reference = data.reference) :
    Shared space next where
  placed := vmas ▸ shared.placed
  apart := vmas ▸ shared.apart
  counted := by
    rw [State.handles, vmas, stored]
    exact shared.counted.replace live (congrArg BitVec.toNat same)
  released := by
    rw [kfreed, stored]
    exact shared.released.set live

/-- A further area increments the reference count, which does not wrap around. -/
theorem Shared.share (shared : Shared space state) {vma kept further : Vma} {data : PrivateData}
    (known : vma ∈ state.vmas) (live : state.privateData.get vma.vmPrivateData = some data)
    (opens : Opens space state.vmas vma kept further) :
    Shared space { state with
      privateData := state.privateData.set vma.vmPrivateData { data with reference := data.reference + 1 }
      vmas := further :: kept :: state.vmas.erase vma } := by
  obtain ⟨ownKept, ownFurther, placedKept, placedFurther, separate, others⟩ := opens
  have placed : ∀ other ∈ further :: kept :: state.vmas.erase vma, other.Placed space :=
    List.forall_mem_cons.mpr ⟨placedFurther, List.forall_mem_cons.mpr ⟨placedKept, fun other listed =>
      shared.placed other (List.mem_of_mem_erase listed)⟩⟩
  have apart : (further :: kept :: state.vmas.erase vma).Pairwise Vma.Apart := by
    refine List.pairwise_cons.mpr ⟨List.forall_mem_cons.mpr ⟨separate, ?_⟩, ?_⟩
    · exact fun other listed => (others other listed).2
    exact List.pairwise_cons.mpr ⟨fun other listed => (others other listed).1, shared.apart.erase _⟩
  have same : List.Perm (vma.vmPrivateData :: state.handles)
      ((further :: kept :: state.vmas.erase vma).map Vma.vmPrivateData) := by
    rw [List.map_cons, List.map_cons, ownKept, ownFurther]
    exact (handles_erase known).cons _
  have count := (shared.counted.perm (handles_erase known)).get live
  have bound := count_handles_le placed apart vma.vmPrivateData
  rw [← same.count_eq, List.count_cons_self, (handles_erase known).count_eq, List.count_cons_self, ← count] at bound
  have word := space.userBelowKernel.trans_lt space.fits
  refine ⟨placed, apart, (shared.counted.share live (List.mem_map_of_mem known) ?_).perm same,
    shared.released.set live⟩
  change (data.reference + 1).toNat = data.reference.toNat + 1
  change data.reference.toNat + 1 ≤ _ at bound
  bv_omega

theorem Shared.erase (shared : Shared space state) (vma : Vma) :
    (∀ other ∈ state.vmas.erase vma, other.Placed space) ∧ (state.vmas.erase vma).Pairwise Vma.Apart :=
  ⟨fun other known => shared.placed other (List.mem_of_mem_erase known), shared.apart.erase _⟩

/-- The last reference belongs to the last area. -/
theorem Shared.last (shared : Shared space state) {vma : Vma} {data : PrivateData} (known : vma ∈ state.vmas)
    (live : state.privateData.get vma.vmPrivateData = some data) (one : data.reference = 1) :
    vma.vmPrivateData ∉ (state.vmas.erase vma).map Vma.vmPrivateData ∧
      Counted PrivateData.references ((state.vmas.erase vma).map Vma.vmPrivateData)
        (state.privateData.erase vma.vmPrivateData) :=
  (shared.counted.perm (handles_erase known)).last live (by rw [PrivateData.references, one]; rfl)

/-- Each effect keeps the sharing, unless the module crashes. -/
theorem shared_effect {event : PagingEvent} (shared : Shared space state) (effect : Effect space state event next)
    (running : next.crashed = false) : Shared space next := by
  cases effect with
  | write value => exact { shared with }
  | nullData => contradiction
  | refused block _ _ =>
      exact { shared with counted := shared.counted.insert, released := shared.released.insert }
  | prepaged address vma own _ placed _ => exact shared.create (congrArg _ own) placed rfl
  | mapped vma own _ placed => exact shared.create (congrArg _ own) placed rfl
  | dangling vma _ _ _ => contradiction
  | noPage => exact shared
  | remapFails data _ live _ _ => exact shared.replace live rfl rfl rfl rfl
  | recorded data list _ live _ _ _ => exact shared.replace live rfl rfl rfl rfl
  | unrecorded data _ _ _ _ => contradiction
  | opened data known live opens => exact shared.share known live opens
  | closed data known live several =>
      obtain ⟨placed, apart⟩ := shared.erase _
      have counted := shared.counted.perm (handles_erase known)
      have count := counted.get live
      refine ⟨placed, apart, counted.drop live ?_, shared.released.set live⟩
      change (data.reference - 1).toNat + 1 = data.reference.toNat
      change data.reference.toNat = _ at count
      bv_omega
  | lost data _ _ _ _ _ => contradiction
  | walked data list known live one _ _ =>
      obtain ⟨placed, apart⟩ := shared.erase _
      exact ⟨placed, apart, (shared.last known live one).2, shared.released.erase live⟩
  | freed data known live one _ =>
      obtain ⟨placed, apart⟩ := shared.erase _
      exact ⟨placed, apart, (shared.last known live one).2, shared.released.erase live⟩

theorem shared_initial (demandPaging : BitVec 32) : Shared space { demandPaging } where
  placed := nofun
  apart := .nil
  counted := nofun
  released key := by simp

/-- The sharing is right in all runs up to a crash. -/
theorem shared_reached {guard : Guard State PagingEvent} (reached : (paging space).Reaches guard state)
    (running : state.crashed = false) : Shared space state := by
  refine reached.invariant (fun state => state.crashed = false → Shared space state) ?_ ?_ running
  · rintro _ ⟨demandPaging, rfl⟩ _
    exact shared_initial demandPaging
  · intro state event next _ shared _ taken running
    obtain ⟨before, effect⟩ := step_effect taken
    exact shared_effect (shared before) effect running

end KernelStudio.Paging
