/-
This file proves what the last close of a mapping releases. It acts in the mode of the moment, so it is right only for
mappings of demand paging, and it never returns the block of a prepaged mapping.
-/

import KernelStudio.Proof.Paging.Record

namespace KernelStudio.Paging

open Transition Sharing

/-- A teardown in the mode of its mapping walks a list only if it was initialised, frees a block only if one was
obtained, and leaves no page of the mapping behind. -/
structure Teardown.InMode (teardown : Teardown) (state : State) : Prop where
  walks : ∀ list, teardown.release = .walk list → list ≠ none
  frees : ∀ address order, teardown.release = .freePages address order → teardown.mapping.block ≠ none
  pages : ∀ page ∈ teardown.mapping.obtained, page ∈ state.freed
  block : ∀ block ∈ teardown.mapping.block, block ∈ state.freedBlocks

/-- At the last close the module pages on demand, as it did when the mapping was created, and no call of
`remap_pfn_range` for a fault of the mapping has returned `-1`. -/
def sameMode (state : State) : PagingEvent → Prop
  | .vmaClose vma => ∀ data ∈ state.privateData.get vma.vmPrivateData, data.reference = 1 →
      state.demandPaging ≠ 0 ∧ data.mapping.demandPaging ≠ 0 ∧ data.mapping.failedRemaps = 0
  | _ => True

instance (state : State) (event : PagingEvent) : Decidable (sameMode state event) :=
  match event with
  | .vmaClose vma => inferInstanceAs (Decidable (∀ data ∈ state.privateData.get vma.vmPrivateData, _))
  | .write _ | .mmap .. | .fault .. | .vmaOpen .. => isTrue trivial

variable {space : AddressSpace} {state next : State}

/-- Later releases do not undo a teardown. -/
theorem Teardown.InMode.mono {teardown : Teardown} (right : teardown.InMode state)
    (freed : state.freed ⊆ next.freed) (blocks : state.freedBlocks ⊆ next.freedBlocks) : teardown.InMode next :=
  { right with
    pages := fun page known => freed (right.pages page known)
    block := fun block known => blocks (right.block block known) }

/-- Each call keeps the teardowns in the mode of their mappings. -/
theorem inMode_effect {event : PagingEvent} (recording : Recording space state)
    (right : ∀ teardown ∈ state.teardowns, teardown.InMode state) (admitted : sameMode state event)
    (effect : Effect space state event next) : ∀ teardown ∈ next.teardowns, teardown.InMode next := by
  have same (freed : next.freed = state.freed) (blocks : next.freedBlocks = state.freedBlocks)
      (teardowns : next.teardowns = state.teardowns) : ∀ teardown ∈ next.teardowns, teardown.InMode next :=
    fun teardown known => (right teardown (teardowns ▸ known)).mono (freed ▸ List.Subset.refl _)
      (blocks ▸ List.Subset.refl _)
  cases effect with
  | lost data known live one _ none =>
      obtain ⟨_, mode, _⟩ := admitted data live one
      cases recording.mapping _ (List.mem_map_of_mem known) data live with
      | demand list _ initialised _ _ _ _ => simp [none] at initialised
      | prepaged _ _ off _ _ _ _ _ => exact absurd off mode
  | walked data list known live one _ old =>
      obtain ⟨_, mode, kept⟩ := admitted data live one
      cases recording.mapping _ (List.mem_map_of_mem known) data live with
      | demand pages leaked initialised _ block obtained fails =>
          obtain rfl := Option.some.inj (initialised.symm.trans old)
          obtain rfl := List.eq_nil_of_length_eq_zero (fails.trans kept)
          rw [List.append_nil] at obtained
          intro teardown listed
          rcases List.mem_append.mp listed with older | new
          · exact (right teardown older).mono (List.subset_append_left _ _) (List.Subset.refl _)
          · obtain rfl := List.mem_singleton.mp new
            exact
              { walks := by simp
                frees := by simp
                pages := fun page known => List.mem_append_right _ (obtained.mem_iff.mp known)
                block := by simp [block] }
      | prepaged _ _ off _ _ _ _ _ => exact absurd off mode
  | freed data known live one off => exact absurd off (admitted data live one).1
  | _ => exact same rfl rfl rfl

/-- While each last close finds the mode of its mapping to be demand paging, as it was at `paging_mmap`, and no page
of the mapping was leaked by a fault, each teardown acts in the mode of its mapping. -/
theorem teardowns_in_mode (space : AddressSpace) {state : State} (reached : (paging space).Reaches sameMode state) :
    ∀ teardown ∈ state.teardowns, teardown.InMode state := by
  refine reached.invariant (fun state => ∀ teardown ∈ state.teardowns, teardown.InMode state) ?_ ?_
  · rintro _ ⟨demandPaging, rfl⟩
    exact nofun
  · intro state event next before right admitted taken
    obtain ⟨ran, effect⟩ := step_effect taken
    exact inMode_effect (recording_reached before ran) right admitted effect

/-- A mapping of demand paging takes a fault and is unmapped before the parameter changes. -/
def demandEvents : List PagingEvent :=
  [.write 1, .mmap 0x1000 0x2000 true none 0, .fault ⟨0x1000, 0x2000, 0⟩ 0x1000 true 0 true,
    .vmaClose ⟨0x1000, 0x2000, 0⟩, .write 0]

/-- Its page is released by the walk over its list. -/
theorem teardowns_in_mode_demand : ∃ state : State, state.freed = [0] ∧ state.teardowns.length = 1 ∧
    ∀ teardown ∈ state.teardowns, teardown.InMode state := by
  have initial : (paging arm).start {} := ⟨1, rfl⟩
  have admitted : (paging arm).admits sameMode {} demandEvents = true := by decide +kernel
  have executed : ((paging arm).execute {} demandEvents).map
      (fun state => (state.freed, state.teardowns.length)) = some ([0], 1) := by decide +kernel
  obtain ⟨state, reached, shown⟩ := Machine.admits_shows initial demandEvents admitted _ executed
  simp only [Prod.mk.injEq] at shown
  exact ⟨state, shown.1, shown.2, teardowns_in_mode arm reached⟩

/-- The parameter changes between the fault and the close. -/
def changedEvents : List PagingEvent :=
  [.mmap 0x1000 0x2000 true none 0, .fault ⟨0x1000, 0x2000, 0⟩ 0x1000 true 0 true, .write 0,
    .vmaClose ⟨0x1000, 0x2000, 0⟩]

/-- The close then frees a block that was never obtained, and the page of the mapping stays allocated. -/
theorem page_left_behind : ∃ state, (paging arm).Reachable state ∧ state.freed = [] ∧
    ∃ teardown ∈ state.teardowns, teardown.mapping.obtained = [0] ∧ teardown.mapping.block = none ∧
      teardown.release = .freePages 0x1000 0 ∧ ¬ teardown.InMode state := by
  have initial : (paging arm).start {} := ⟨1, rfl⟩
  have executed : ((paging arm).execute {} changedEvents).map (fun state => (state.freed, state.teardowns)) =
      some ([], [⟨⟨1, 0x1000, none, [0], 0⟩, .freePages 0x1000 0⟩]) := by decide +kernel
  obtain ⟨state, reached, shown⟩ := Machine.execute_shows initial changedEvents _ executed
  simp only [Prod.mk.injEq] at shown
  obtain ⟨freed, teardowns⟩ := shown
  refine ⟨state, reached, freed, _, teardowns ▸ List.mem_cons_self, rfl, rfl, rfl, fun right => ?_⟩
  exact right.frees _ _ rfl rfl

/-- A leaked page is neither on the list of its mapping nor freed. -/
theorem Recording.leaked (recording : Recording space state) {key : Nat} {data : PrivateData}
    (live : state.privateData.get key = some data) {list leaked : List Page}
    (pages : data.mapping.obtained.Perm (list ++ leaked)) {page : Page} (known : page ∈ leaked) :
    page ∉ state.freed ++ list := by
  have all := (Store.gather_perm live fun data => data.mapping.obtained).trans (pages.append_right _)
  have distinct := (all.append_left state.freed).nodup_iff.mp recording.distinct.1
  rw [← List.append_assoc, ← List.append_assoc, List.append_assoc _ leaked] at distinct
  exact fun freed => (List.nodup_append.mp distinct).2.2 page freed page (List.mem_append_left _ known) rfl

/-- A last close that breaks the condition leaves a teardown in the wrong mode. -/
theorem not_inMode {guard : Guard State PagingEvent} (reached : (paging space).Reaches guard state)
    {event : PagingEvent} (broken : ¬ sameMode state event) (taken : state.step space event = some next) :
    ∃ teardown ∈ next.teardowns, ¬ teardown.InMode next := by
  obtain ⟨ran, effect⟩ := step_effect taken
  have recording := recording_reached reached ran
  have kept := recording_effect (shared_reached reached ran) recording effect
  cases event with
  | write | mmap | fault | vmaOpen => exact absurd trivial broken
  | vmaClose vma =>
      obtain ⟨data, live, one, wrong⟩ : ∃ data, state.privateData.get vma.vmPrivateData = some data ∧
          data.reference = 1 ∧
            ¬(state.demandPaging ≠ 0 ∧ data.mapping.demandPaging ≠ 0 ∧ data.mapping.failedRemaps = 0) := by
        simpa only [sameMode, not_forall, exists_prop, Option.mem_def] using broken
      cases effect with
      | dangling _ uses _ gone =>
          cases uses
          simp [live] at gone
      | closed other _ found several =>
          obtain rfl := Option.some.inj (live.symm.trans found)
          exact absurd one several
      | lost other _ _ _ _ _ =>
          refine ⟨_, List.mem_append_right _ (List.mem_singleton_self _), fun right => ?_⟩
          exact right.walks none rfl rfl
      | walked other list known found _ on old =>
          obtain rfl := Option.some.inj (live.symm.trans found)
          refine ⟨_, List.mem_append_right _ (List.mem_singleton_self _), fun right => ?_⟩
          cases recording.mapping _ (List.mem_map_of_mem known) data live with
          | demand pages leaked initialised mode _ obtained fails =>
              obtain rfl := Option.some.inj (initialised.symm.trans old)
              have some : leaked ≠ [] := fun none => wrong ⟨on, mode, by rw [← fails, none, List.length_nil]⟩
              obtain ⟨page, lost⟩ := List.exists_mem_of_ne_nil leaked some
              exact recording.leaked live obtained lost
                (right.pages page (obtained.mem_iff.mpr (List.mem_append_right _ lost)))
          | prepaged _ none _ _ _ _ _ _ => simp [old] at none
      | freed other known found _ off =>
          obtain rfl := Option.some.inj (live.symm.trans found)
          refine ⟨_, List.mem_append_right _ (List.mem_singleton_self _), fun right => ?_⟩
          cases recording.mapping _ (List.mem_map_of_mem known) data live with
          | demand _ _ _ _ block _ _ => exact right.frees _ _ rfl block
          | prepaged block _ _ obtained kernel _ _ _ =>
              have user := (kept ran).user block (right.block block obtained)
              exact absurd (space.userBelowKernel.trans kernel) (Nat.not_le.mpr user)

/-- A teardown is inverse to prepaging if it frees the first page and the order of the block that was obtained, and
this order is the least one for the length of the mapping. -/
def Teardown.Inverse (teardown : Teardown) : Prop :=
  ∃ block, teardown.mapping.block = some block ∧ teardown.release = .freePages block.address block.order ∧
    IsLeast {order | teardown.mapping.length ≤ 2 ^ order * pageSize} block.order

/-- The last close of a prepaged mapping passes a user address to `free_pages`. -/
def Teardown.FreesUser (space : AddressSpace) (teardown : Teardown) : Prop :=
  ∃ block address order, teardown.mapping.block = some block ∧ teardown.release = .freePages address order ∧
    address < space.taskSize ∧ space.pageOffset ≤ block.address ∧
      IsLeast {order | teardown.mapping.length ≤ 2 ^ order * pageSize} block.order

/-- All mappings of a module that prepages were created by prepaging. -/
theorem prepaged_effect {event : PagingEvent}
    (modes : ∀ key data, state.privateData.get key = some data → data.mapping.demandPaging = 0)
    (admitted : steady 0 state event) (effect : Effect space state event next) :
    ∀ key data, next.privateData.get key = some data → data.mapping.demandPaging = 0 := by
  have set {key : Nat} {data other : PrivateData} (live : state.privateData.get key = some data)
      (mode : other.mapping.demandPaging = data.mapping.demandPaging) :
      ∀ known found, (state.privateData.set key other).get known = some found → found.mapping.demandPaging = 0 := by
    intro known found now
    rw [Store.get_set live] at now
    split at now
    · rw [← Option.some.inj now, mode, modes key data live]
    · exact modes known found now
  have insert {other : PrivateData} (mode : other.mapping.demandPaging = 0) :
      ∀ known found, (state.privateData.insert other).get known = some found → found.mapping.demandPaging = 0 := by
    intro known found now
    rw [Store.get_insert] at now
    split at now
    · exact Option.some.inj now ▸ mode
    · exact modes known found now
  have erase {key : Nat} :
      ∀ known found, (state.privateData.erase key).get known = some found → found.mapping.demandPaging = 0 := by
    intro known found now
    rw [Store.get_erase] at now
    split at now
    · contradiction
    · exact modes known found now
  cases effect with
  | refused _ off _ => exact insert off
  | prepaged _ _ _ off _ _ => exact insert off
  | mapped _ _ on _ => exact absurd admitted.1 on
  | remapFails _ _ live _ _ => exact set live rfl
  | recorded _ _ _ live _ _ _ => exact set live rfl
  | unrecorded _ _ live _ _ => exact set live rfl
  | opened _ _ live _ => exact set live rfl
  | closed _ _ live _ => exact set live rfl
  | walked _ _ _ _ _ on _ => exact absurd admitted.1 on
  | freed _ _ _ _ _ => exact erase
  | _ => exact modes

/-- With constant prepaging each teardown frees a user address. -/
theorem freesUser_reached (reached : (paging space).Reaches (steady 0) state) :
    (∀ key data, state.privateData.get key = some data → data.mapping.demandPaging = 0) ∧
      ∀ teardown ∈ state.teardowns, teardown.FreesUser space := by
  refine reached.invariant (fun state =>
    (∀ key data, state.privateData.get key = some data → data.mapping.demandPaging = 0) ∧
      ∀ teardown ∈ state.teardowns, teardown.FreesUser space) ?_ ?_
  · rintro _ ⟨demandPaging, rfl⟩
    exact ⟨nofun, nofun⟩
  · rintro state event next before ⟨modes, frees⟩ admitted taken
    obtain ⟨ran, effect⟩ := step_effect taken
    refine ⟨prepaged_effect modes admitted effect, ?_⟩
    cases effect with
    | lost _ _ _ _ on _ => exact absurd admitted.1 on
    | walked _ _ _ _ _ on _ => exact absurd admitted.1 on
    | @freed vma data known live _ _ =>
        intro teardown listed
        rcases List.mem_append.mp listed with older | new
        · exact frees teardown older
        · obtain rfl := List.mem_singleton.mp new
          have placed := (shared_reached before ran).placed vma known
          cases (recording_reached before ran).mapping _ (List.mem_map_of_mem known) data live with
          | demand _ _ _ on _ _ _ => exact absurd (modes _ data live) on
          | prepaged block _ _ obtained kernel least _ _ =>
              exact ⟨block, vma.vmStart, orderOf vma, obtained, rfl, placed.1.trans_le placed.2, kernel, least⟩
    | _ => exact frees

/-- With constant prepaging and calls that succeed, each mapping obtains the least block for its length, and no last
close returns it: `free_pages` takes the address of a page in the kernel, but it is given the start of an area. -/
theorem block_never_returned (space : AddressSpace) {state : State}
    (reached : (paging space).Reaches (steady 0) state) :
    ∀ teardown ∈ state.teardowns, (∃ block, teardown.mapping.block = some block ∧
      IsLeast {order | teardown.mapping.length ≤ 2 ^ order * pageSize} block.order) ∧ ¬ teardown.Inverse := by
  intro teardown listed
  obtain ⟨block, address, order, obtained, release, user, kernel, least⟩ :=
    (freesUser_reached reached).2 teardown listed
  refine ⟨⟨block, obtained, least⟩, fun ⟨other, same, returned, _⟩ => ?_⟩
  rw [obtained, Option.some.injEq] at same
  rw [release, Release.freePages.injEq] at returned
  have below := space.userBelowKernel
  rw [← same] at returned
  omega

/-- Three prepaged pages are unmapped in two parts. -/
def prepagedEvents : List PagingEvent :=
  [.mmap 0x1000 0x4000 true (some 0xC0100000) 0,
    .vmaOpen ⟨0x1000, 0x4000, 0⟩ ⟨0x1000, 0x3000, 0⟩ ⟨0x3000, 0x4000, 0⟩, .vmaClose ⟨0x1000, 0x3000, 0⟩,
    .vmaClose ⟨0x3000, 0x4000, 0⟩]

/-- The block of four pages is not returned. -/
theorem block_never_returned_split : ∃ state : State,
    state.teardowns = [⟨⟨0, 0x3000, some ⟨0xC0100000, 2⟩, [], 0⟩, .freePages 0x3000 0⟩] ∧
      ∀ teardown ∈ state.teardowns, (∃ block, teardown.mapping.block = some block ∧
        IsLeast {order | teardown.mapping.length ≤ 2 ^ order * pageSize} block.order) ∧ ¬ teardown.Inverse := by
  have initial : (paging arm).start { demandPaging := 0 } := ⟨0, rfl⟩
  have admitted : (paging arm).admits (steady 0) { demandPaging := 0 } prepagedEvents = true := by decide +kernel
  have executed : ((paging arm).execute { demandPaging := 0 } prepagedEvents).map (fun state => state.teardowns) =
      some [⟨⟨0, 0x3000, some ⟨0xC0100000, 2⟩, [], 0⟩, .freePages 0x3000 0⟩] := by decide +kernel
  obtain ⟨state, reached, shown⟩ := Machine.admits_shows initial prepagedEvents admitted _ executed
  exact ⟨state, shown, block_never_returned arm reached⟩

/-- A mapping of one page that is unmapped at once does not return its block either. -/
theorem single_page_not_returned : ∃ state, (paging arm).Reaches (steady 0) state ∧
    ∃ teardown ∈ state.teardowns, teardown.mapping.block = some ⟨0xC0100000, 0⟩ ∧
      teardown.release = .freePages 0x1000 0 ∧ ¬ teardown.Inverse := by
  let events : List PagingEvent := [.mmap 0x1000 0x2000 true (some 0xC0100000) 0, .vmaClose ⟨0x1000, 0x2000, 0⟩]
  have initial : (paging arm).start { demandPaging := 0 } := ⟨0, rfl⟩
  have admitted : (paging arm).admits (steady 0) { demandPaging := 0 } events = true := by decide +kernel
  have executed : ((paging arm).execute { demandPaging := 0 } events).map (fun state => state.teardowns) =
      some [⟨⟨0, 0x1000, some ⟨0xC0100000, 0⟩, [], 0⟩, .freePages 0x1000 0⟩] := by decide +kernel
  obtain ⟨state, reached, shown⟩ := Machine.admits_shows initial events admitted _ executed
  refine ⟨state, reached, _, shown ▸ List.mem_cons_self, rfl, rfl, ?_⟩
  rintro ⟨block, obtained, returned, _⟩
  obtain rfl := Option.some.inj obtained
  exact absurd returned (by decide)

end KernelStudio.Paging
