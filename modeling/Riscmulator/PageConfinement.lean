import Riscmulator.PageIsolation

/-! Machines that differ outside the address spaces of the harts: below M-mode, they do the
same in both. -/

namespace Riscmulator

open Transition

variable {δ : Type}

/-- What a hart in such an address space may read: what is mapped, and the tables. -/
def SpaceVisible {mc : EmuConfig δ} (T : TableSet mc) (pages : U64 → Prop) (addr : U64) : Prop :=
  pages (pageOf addr) ∨ T.Covers addr

section Access

variable {mc : EmuConfig δ} {T : TableSet mc} {table : U64 → U64}
  {pages writable roots : U64 → Prop} {m m' : EmuMachine δ} {h : Nat} {vaddr base : U64}
  {mode : RvAccess}

theorem visible_pages {addr : U64} {n : Nat}
    (mapped : VisibleRange (fun a => pages (pageOf a)) addr n) :
    VisibleRange (SpaceVisible T pages) addr n := fun k inside => Or.inl (mapped k inside)

theorem visible_entry {paddr : U64} (mem : T.mem paddr) :
    VisibleRange (SpaceVisible T pages) paddr 8 := by
  intro k inside
  exact Or.inr ⟨paddr, mem, by bv_omega⟩

/-- A walk of the tables reads the tables. -/
theorem TablesHeld.walkSeen {level : Nat} (held : TablesHeld T table m.ram)
    (within : Sv39.Within T.mem table vaddr level base) :
    WalkSeen mc (SpaceVisible T pages) h vaddr level m base := by
  induction level generalizing base with
  | zero => trivial
  | succ level ih =>
      obtain ⟨mem, inner⟩ := within
      have same := held.fixed _ mem
      obtain ⟨_, machine, data⟩ := rvAccessPhys_load m h (T.inRam _ mem)
      rw [WalkSeen, rvPtePaddr_eq, machine, data, Option.getD_some, rvPtePpn_eq, same.ppn]
      refine ⟨visible_entry mem, fun _ valid pointer => ih (inner ?_ ?_)⟩
      · rw [← same.valid]
        exact valid
      · rw [← same.isLeaf]
        by_contra leaf
        rw [Bool.not_eq_false] at leaf
        exact (rwxMask_iff _).mpr (Or.inl leaf) pointer

theorem InSpace.lookup_agree (inside : InSpace T table pages writable roots m h)
    (spaces : SpacesApart T table pages writable roots)
    (agree : Agree mc (SpaceVisible T pages) m m') (vaddr : U64) (mode : RvAccess) :
    AlikeLookup (Agree mc (SpaceVisible T pages)) (rvPagingLookup mc m h vaddr mode)
      (rvPagingLookup mc m' h vaddr mode) := by
  refine (agree_bus mc _).lookup agree_harts agree fun first same => ?_
  have held : TablesHeld T table first.ram := by
    rw [same]
    exact inside.held
  exact held.walkSeen ((spaces.spaces _ inside.root).within vaddr)

/-- An access in an address space comes to the same. -/
theorem InSpace.access_agree (inside : InSpace T table pages writable roots m h)
    (spaces : SpacesApart T table pages writable roots)
    (agree : Agree mc (SpaceVisible T pages) m m') (vaddr data : U64) (sizeExp : Fin 4)
    (mode : RvAccess) :
    AlikeOut (Agree mc (SpaceVisible T pages)) (rvAccessVirt mc m h vaddr data sizeExp mode)
      (rvAccessVirt mc m' h vaddr data sizeExp mode) := by
  have bus := agree_bus mc (SpaceVisible T pages)
  obtain ⟨pos, small⟩ := accessSize_small sizeExp
  have space := spaces.spaces _ inside.root
  have look0 := inside.lookup_agree spaces agree vaddr mode
  obtain ⟨found0, tlb0⟩ := rvPagingLookup_within space inside.held inside.tlb vaddr mode
  have frame0 := rvPagingLookup_frame mc m h vaddr mode
  have inside0 : InSpace T table pages writable roots (rvPagingLookup mc m h vaddr mode).machine h :=
    inside.later (frame0.core h).sameControl ⟨found0.held, tlb0, found0.kept.mono fun _ => Or.inr⟩
  have look1 := inside0.lookup_agree spaces look0.machine (rvNextPage vaddr) mode
  obtain ⟨found1, _⟩ := rvPagingLookup_within (spaces.spaces _ inside0.root) inside0.held
    inside0.tlb (rvNextPage vaddr) mode
  simp only [rvAccessVirt, rvAccessVirtBy, rvAccessVirtPageboundary, agree.cpus,
    inside.translated mode, Bool.false_eq_true, if_false, look0.res, look0.entry, look1.res,
    look1.entry]
  split
  · exact ⟨rfl, rfl, agree⟩
  split
  · next crosses =>
      obtain ⟨size0, size1, boundary⟩ := crossesAt pos small crosses
      have start := rvNextPage_offset vaddr
      have total := boundary.total
      have offset := boundary.offset
      split
      · exact ⟨rfl, rfl, agree⟩
      split
      · exact ⟨rfl, rfl, look0.machine⟩
      next ok0 =>
      split
      · exact ⟨rfl, rfl, look1.machine⟩
      next ok1 =>
      refine bus.twoPages agree_harts look1.machine data
        (visible_pages (translate_range (found0.found (not_not.mp ok0)).page ?_))
        (visible_pages (translate_range (found1.found (not_not.mp ok1)).page ?_))
      · rw [boundary.first]
        omega
      · rw [boundary.second]
        omega
  · next same =>
      have room := room_of_samePage pos small (not_not.mp same)
      split
      · exact ⟨rfl, rfl, look0.machine⟩
      next ok =>
      exact bus.phys agree_harts look0.machine data true
        (visible_pages (translate_range (found0.found (not_not.mp ok)).page room))

end Access

/-! ### Runs -/

/-- Machines that agree on the address spaces stay in lockstep while the harts run in them. -/
theorem space_lockstep {mc : EmuConfig δ} {T : TableSet mc} {table : U64 → U64}
    {pages writable roots : U64 → Prop} (hooks : mc.NoHooks)
    (spaces : SpacesApart T table pages writable roots) :
    Lockstep mc mc (Agree mc (SpaceVisible T pages))
      (InSpace T table pages writable roots) where
  toAlikeHarts := agree_harts
  hooks := hooks
  hooks' := hooks
  host := ⟨rfl, rfl, rfl, rfl⟩
  steps := fun inside steps =>
    inside.later (steps.work.dataStep.core _) (steps.spaceKept spaces inside)
  access := fun agree inside vaddr data sizeExp mode =>
    inside.access_agree spaces agree vaddr data sizeExp mode

/-- Bytes of RAM outside the pages that the address spaces map, and outside their tables, make
no difference to what the harts do in them, in whatever order they take their steps, if all
they store in a TLB is inside its array. -/
theorem paging_hides (mc : EmuConfig δ) (hooks : mc.NoHooks) (T : TableSet mc)
    (pages writable roots : U64 → Prop) {m m' : EmuMachine δ}
    (agree : Agree mc (SpaceVisible T pages) m m') (schedule : List Nat)
    (spaces : SpacesApart T (ramTable mc m.ram) pages writable roots)
    (start : ∀ h ∈ schedule, MemSynced (m.cpus h) ∧ TlbWithin pages writable (m.cpus h).tlb)
    (below : StepsMeet (hostStepInsn mc) (PagedBelow roots) m schedule)
    (inside : StepsMeet (hostStepInsn mc) (StepInArray mc) m schedule) :
    Agree mc (SpaceVisible T pages) (run (hostStepInsn mc) m schedule)
      (run (hostStepInsn mc) m' schedule) := by
  have group := groupSpace_start T start
  have members : StepsMeet (hostStepInsn mc) (fun _ h => h ∈ schedule) m schedule :=
    stepsMeet_of_forall m fun h member => member
  suffices reached : Agree mc (SpaceVisible T pages) (run (hostStepInsn mc) m schedule)
      (run (hostStepInsn mc) m' schedule) ∧
        GroupSpace T (ramTable mc m.ram) pages writable schedule
          (run (hostStepInsn mc) m schedule) from reached.1
  refine related_run (R := fun now now' => Agree mc (SpaceVisible T pages) now now' ∧
    GroupSpace T (ramTable mc m.ram) pages writable schedule now) ?_ ⟨agree, group⟩
    (stepsMeet_and (stepsMeet_and below members) inside)
  rintro now now' h ⟨agree, group⟩ ⟨⟨low, member⟩, stores⟩
  have inSpace := group.inSpace member low
  have next := (space_lockstep hooks spaces).stepInsn agree inSpace
  -- The TLBs of both machines are the same, so their stores are inside together.
  have stores' : StepInArray mc now' h := by
    rw [StepInArray, StoresInArray, unhooked_eq hooks] at stores ⊢
    exact (inArray_of_entries fun i =>
      congrArg (fun cpus : Nat → RvCpu => (cpus i).tlb.entries) next.cpus).mpr stores
  rw [hostStepInsn_eq stores, hostStepInsn_eq stores']
  exact ⟨next, group.step hooks spaces member low⟩

theorem gigaRam_agree (secret secret' : U8) :
    Agree gigaConfig (SpaceVisible gigaTables InGiga) (gigaMachine secret) (gigaMachine secret') := by
  refine ⟨?_, rfl⟩
  intro a shown
  have other : a - gigaConfig.ramStart ≠ 0x2000 := by
    have start : a - gigaConfig.ramStart = a := BitVec.sub_zero a
    rw [start]
    rintro rfl
    rcases shown with mapped | ⟨paddr, mem, near⟩
    · exact absurd mapped (by rw [InGiga, pageOf]; decide)
    · have small : paddr.toNat < 4096 := mem.1
      bv_omega
  simp only [gigaMachine, gigaRam, ramStore, other, if_false]

/-- Two harts load from their page whatever the byte outside it is. -/
theorem paging_hides_giga :
    Agree gigaConfig (SpaceVisible gigaTables InGiga)
      (run (hostStepInsn gigaConfig) (gigaMachine 0x55) [0, 1, 1, 0])
      (run (hostStepInsn gigaConfig) (gigaMachine 0xaa) [0, 1, 1, 0]) :=
  paging_hides gigaConfig (fun _ => rfl) gigaTables InGiga InGiga (· = 0)
    (gigaRam_agree 0x55 0xaa) [0, 1, 1, 0] (gigaSpaces 0x55) (fun _ _ => gigaCpu_start)
    gigaMachine_below gigaMachine_inside

end Riscmulator
