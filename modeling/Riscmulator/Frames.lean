import Riscmulator.Paging

/-! What memory accesses leave alone: physical accesses change RAM and the
devices only, virtual ones the hart's TLB as well. -/

namespace Riscmulator

variable {δ : Type}

/-- Two states of a core that agree outside the TLB and the interrupt lines. -/
structure CoreFrame (cpu cpu' : RvCpu) : Prop where
  xregs : cpu'.xregs = cpu.xregs
  fregs : cpu'.fregs = cpu.fregs
  csr : cpu'.csr = cpu.csr
  pc : cpu'.pc = cpu.pc
  epc : cpu'.epc = cpu.epc
  privilege : cpu'.privilege = cpu.privilege
  memPrivilege : cpu'.memPrivilege = cpu.memPrivilege

theorem CoreFrame.refl (cpu : RvCpu) : CoreFrame cpu cpu := ⟨rfl, rfl, rfl, rfl, rfl, rfl, rfl⟩

theorem CoreFrame.trans {first second third : RvCpu} (left : CoreFrame first second)
    (right : CoreFrame second third) : CoreFrame first third where
  xregs := right.xregs.trans left.xregs
  fregs := right.fregs.trans left.fregs
  csr := right.csr.trans left.csr
  pc := right.pc.trans left.pc
  epc := right.epc.trans left.epc
  privilege := right.privilege.trans left.privilege
  memPrivilege := right.memPrivilege.trans left.memPrivilege

/-- A virtual access of hart `h` leaves every core alone outside the TLB of `h`
and the interrupt lines, and the reservations alone. -/
structure VirtFrame (h : Nat) (m m' : EmuMachine δ) : Prop where
  core : ∀ i, CoreFrame (m.cpus i) (m'.cpus i)
  tlb : ∀ i, i ≠ h → (m'.cpus i).tlb = (m.cpus i).tlb
  reservations : m'.reservations = m.reservations
  feround : m'.feround = m.feround
  aborted : m'.aborted = m.aborted

theorem VirtFrame.refl (h : Nat) (m : EmuMachine δ) : VirtFrame h m m :=
  ⟨fun _ => CoreFrame.refl _, fun _ _ => rfl, rfl, rfl, rfl⟩

theorem VirtFrame.trans {h : Nat} {first second third : EmuMachine δ}
    (left : VirtFrame h first second) (right : VirtFrame h second third) :
    VirtFrame h first third where
  core := fun i => (left.core i).trans (right.core i)
  tlb := fun i other => (right.tlb i other).trans (left.tlb i other)
  reservations := right.reservations.trans left.reservations
  feround := right.feround.trans left.feround
  aborted := right.aborted.trans left.aborted

/-- A physical access leaves the TLBs alone too. -/
structure PhysFrame (m m' : EmuMachine δ) : Prop where
  core : ∀ i, CoreFrame (m.cpus i) (m'.cpus i)
  tlb : ∀ i, (m'.cpus i).tlb = (m.cpus i).tlb
  reservations : m'.reservations = m.reservations
  feround : m'.feround = m.feround
  aborted : m'.aborted = m.aborted

theorem PhysFrame.refl (m : EmuMachine δ) : PhysFrame m m :=
  ⟨fun _ => CoreFrame.refl _, fun _ => rfl, rfl, rfl, rfl⟩

theorem PhysFrame.trans {first second third : EmuMachine δ} (left : PhysFrame first second)
    (right : PhysFrame second third) : PhysFrame first third where
  core := fun i => (left.core i).trans (right.core i)
  tlb := fun i => (right.tlb i).trans (left.tlb i)
  reservations := right.reservations.trans left.reservations
  feround := right.feround.trans left.feround
  aborted := right.aborted.trans left.aborted

theorem PhysFrame.virt {m m' : EmuMachine δ} (frame : PhysFrame m m') (h : Nat) :
    VirtFrame h m m' where
  core := frame.core
  tlb := fun i _ => frame.tlb i
  reservations := frame.reservations
  feround := frame.feround
  aborted := frame.aborted

theorem setBus_frame (m : EmuMachine δ) (bus : DeviceBus δ) : PhysFrame m (m.setBus bus) :=
  ⟨fun _ => ⟨rfl, rfl, rfl, rfl, rfl, rfl, rfl⟩, fun _ => rfl, rfl, rfl, rfl⟩

theorem setRam_frame (m : EmuMachine δ) (ram : U64 → U8) : PhysFrame m { m with ram := ram } :=
  ⟨fun _ => CoreFrame.refl _, fun _ => rfl, rfl, rfl, rfl⟩

/-! ### Physical accesses -/

theorem ramTransfer_frame (mc : EmuConfig δ) (m : EmuMachine δ) (addr : U64)
    (data : Option U64) (len : U64) (mode : RvAccess) :
    PhysFrame m (ramTransfer mc m addr data len mode).machine := by
  cases data with
  | none => exact PhysFrame.refl m
  | some d =>
      simp only [ramTransfer]
      split
      · exact setRam_frame m _
      · exact PhysFrame.refl m

theorem mmioDispatch_frame (m : EmuMachine δ) (r : EmuMmioRegion δ) (addr : U64)
    (data : Option U64) (size : U8) (mode : RvAccess) :
    PhysFrame m (mmioDispatch m r addr data size mode).machine := by
  cases data with
  | none => exact PhysFrame.refl m
  | some d =>
      simp only [mmioDispatch]
      split
      · exact setBus_frame m _
      · exact setBus_frame m _

theorem misalignedAccess_frame (mc : EmuConfig δ) (fuel : Nat) (m : EmuMachine δ) (addr : U64)
    (data : Option U64) (size : U64) (mode : RvAccess) :
    PhysFrame m (misalignedAccess mc fuel m addr data size mode).machine := by
  induction fuel generalizing m addr data size with
  | zero => exact PhysFrame.refl m
  | succ fuel ih =>
      simp only [misalignedAccess]
      split
      · exact PhysFrame.refl m
      · split
        · exact (ramTransfer_frame mc m addr data _ mode).trans (ih _ _ _ _)
        · split
          · exact PhysFrame.refl m
          · have dispatched := mmioDispatch_frame m
            split
            · exact dispatched _ addr data _ mode
            · exact (dispatched _ addr data _ mode).trans (ih _ _ _ _)

theorem misalignedTwoPass_frame (mc : EmuConfig δ) (m : EmuMachine δ) (addr data size : U64)
    (mode : RvAccess) : PhysFrame m (misalignedTwoPass mc m addr data size mode).machine := by
  have pass := misalignedAccess_frame mc size.toNat m addr none size mode
  simp only [misalignedTwoPass]
  split
  · exact pass
  · exact pass.trans (misalignedAccess_frame mc _ _ addr _ size mode)

theorem rvAccessPhysPartial_frame (mc : EmuConfig δ) (m : EmuMachine δ) (h : Nat)
    (addr data size : U64) (mode : RvAccess) (ignorePmp : Bool) :
    PhysFrame m (rvAccessPhysPartial mc m h addr data size mode ignorePmp).machine := by
  simp only [rvAccessPhysPartial]
  split
  · exact PhysFrame.refl m
  · exact misalignedTwoPass_frame mc m addr data size mode

theorem rvAccessPhys_frame (mc : EmuConfig δ) (m : EmuMachine δ) (h : Nat) (addr data : U64)
    (sizeExp : Fin 4) (mode : RvAccess) (ignorePmp : Bool) :
    PhysFrame m (rvAccessPhys mc m h addr data sizeExp mode ignorePmp).machine := by
  simp only [rvAccessPhys]
  split
  · exact PhysFrame.refl m
  simp only [rvAccessPhysUnchecked]
  split
  · exact ramTransfer_frame mc m addr _ _ mode
  split
  · exact misalignedTwoPass_frame mc m addr data _ mode
  split
  · exact mmioDispatch_frame m _ addr _ _ mode
  · exact PhysFrame.refl m

/-! ### Page-table walks and lookups -/

theorem rvWalkLeaf_frame (mc : EmuConfig δ) (m : EmuMachine δ) (h : Nat) (vaddr : U64)
    (mode : RvAccess) (level : Nat) (ptePaddr pte : U64) (ptePmp : U8) :
    PhysFrame m (rvWalkLeaf mc m h vaddr mode level ptePaddr pte ptePmp).machine := by
  have stored := rvAccessPhys_frame mc m h ptePaddr (pte ||| rvSetfl mode) 3 .store true
  simp only [rvWalkLeaf]
  split_ifs
  · exact PhysFrame.refl m
  · exact PhysFrame.refl m
  · exact PhysFrame.refl m
  · exact stored
  · exact stored
  · exact PhysFrame.refl m

theorem rvWalk_frame (mc : EmuConfig δ) (h : Nat) (vaddr : U64) (mode : RvAccess) (level : Nat)
    (m : EmuMachine δ) (ppn : U64) :
    PhysFrame m (rvWalk mc h vaddr mode level m ppn).machine := by
  induction level generalizing m ppn with
  | zero => exact PhysFrame.refl m
  | succ level ih =>
      have loaded := rvAccessPhys_frame mc m h (rvPtePaddr ppn vaddr level) 0 3 .load true
      simp only [rvWalk]
      split_ifs
      · exact PhysFrame.refl m
      · exact loaded
      · exact loaded
      · exact loaded.trans (rvWalkLeaf_frame mc _ h vaddr mode level _ _ _)
      · exact loaded.trans (ih _ _)

theorem rvPagingRawLookup_frame (mc : EmuConfig δ) (m : EmuMachine δ) (h : Nat) (vaddr : U64)
    (mode : RvAccess) : PhysFrame m (rvPagingRawLookup mc m h vaddr mode).machine :=
  rvWalk_frame mc h vaddr mode 3 m _

theorem setTlb_frame (m : EmuMachine δ) (h : Nat) (tlb : RvTlb) : VirtFrame h m (m.setTlb h tlb) := by
  refine ⟨fun i => ?_, fun i other => ?_, rfl, rfl, rfl⟩
  · by_cases mine : i = h
    · subst mine
      rw [EmuMachine.setTlb, EmuMachine.setCpu_same]
      exact ⟨rfl, rfl, rfl, rfl, rfl, rfl, rfl⟩
    · rw [EmuMachine.setTlb, EmuMachine.setCpu_other _ _ mine]
      exact CoreFrame.refl _
  · rw [EmuMachine.setTlb, EmuMachine.setCpu_other _ _ other]

theorem rvInvalTlb_frame (cpu : RvCpu) (vaddr : U64) (asid : U16) (withVaddr withAsid : Bool) :
    CoreFrame cpu (rvInvalTlb cpu vaddr asid withVaddr withAsid) := by
  unfold rvInvalTlb
  split_ifs
  · exact CoreFrame.refl cpu
  · exact ⟨rfl, rfl, rfl, rfl, rfl, rfl, rfl⟩
  · exact ⟨rfl, rfl, rfl, rfl, rfl, rfl, rfl⟩
  · exact ⟨rfl, rfl, rfl, rfl, rfl, rfl, rfl⟩

theorem rvPagingMiss_frame (mc : EmuConfig δ) (m : EmuMachine δ) (h : Nat) (vaddr : U64)
    (mode : RvAccess) : VirtFrame h m (rvPagingMiss mc m h vaddr mode).machine := by
  have walked := (rvPagingRawLookup_frame mc m h vaddr mode).virt h
  simp only [rvPagingMiss]
  split_ifs
  · exact walked
  · exact walked
  · exact walked.trans (setTlb_frame _ h _)

theorem rvPagingLookup_frame (mc : EmuConfig δ) (m : EmuMachine δ) (h : Nat) (vaddr : U64)
    (mode : RvAccess) : VirtFrame h m (rvPagingLookup mc m h vaddr mode).machine := by
  simp only [rvPagingLookup]
  split
  · exact VirtFrame.refl h m
  · exact (setTlb_frame m h _).trans (rvPagingMiss_frame mc _ h vaddr mode)
  · exact rvPagingMiss_frame mc m h vaddr mode

/-! ### Virtual accesses -/

theorem rvAccessTwoPages_frame (mc : EmuConfig δ) (m : EmuMachine δ) (h : Nat)
    (vaddr data size : U64) (mode : RvAccess) (result0 result1 : RvTlbEntry) :
    PhysFrame m (rvAccessTwoPages mc m h vaddr data size mode result0 result1).machine := by
  simp only [rvAccessTwoPages]
  have first := rvAccessPhysPartial_frame mc m h (rvTranslate result0 vaddr) data
    (rvNextPage vaddr - vaddr) mode true
  split
  · exact first
  · exact first.trans (rvAccessPhysPartial_frame mc _ h _ _ _ mode true)

theorem rvAccessVirt_frame (mc : EmuConfig δ) (m : EmuMachine δ) (h : Nat) (vaddr data : U64)
    (sizeExp : Fin 4) (mode : RvAccess) :
    VirtFrame h m (rvAccessVirt mc m h vaddr data sizeExp mode).machine := by
  have looked := rvPagingLookup_frame mc m h vaddr mode
  simp only [rvAccessVirt, rvAccessVirtBy]
  split
  · exact (rvAccessPhys_frame mc m h vaddr data sizeExp mode false).virt h
  split
  · exact VirtFrame.refl h m
  split
  · simp only [rvAccessVirtPageboundary]
    split
    · exact VirtFrame.refl h m
    split
    · exact looked
    split
    · exact looked.trans (rvPagingLookup_frame mc _ h _ mode)
    · exact (looked.trans (rvPagingLookup_frame mc _ h _ mode)).trans
        ((rvAccessTwoPages_frame mc _ h vaddr data _ mode _ _).virt h)
  split
  · exact looked
  · exact looked.trans ((rvAccessPhys_frame mc _ h _ data sizeExp mode true).virt h)

/-- A fetch that reads `pc` again reads the same. -/
@[simp] theorem rvAccessVirt_pc (mc : EmuConfig δ) (m : EmuMachine δ) (h i : Nat)
    (vaddr data : U64) (sizeExp : Fin 4) (mode : RvAccess) :
    ((rvAccessVirt mc m h vaddr data sizeExp mode).machine.cpus i).pc = (m.cpus i).pc :=
  ((rvAccessVirt_frame mc m h vaddr data sizeExp mode).core i).pc

/-! ### Hooks -/

def EmuConfig.hooked (mc : EmuConfig δ)
    (hooks : Nat → Option (EmuMachine δ → Nat → RvTrap → Bool × EmuMachine δ)) : EmuConfig δ :=
  { mc with trapHook := hooks }

section Hooked

variable (mc : EmuConfig δ)
  (hooks : Nat → Option (EmuMachine δ → Nat → RvTrap → Bool × EmuMachine δ))

theorem misalignedAccess_hooked (fuel : Nat) (m : EmuMachine δ) (addr : U64) (data : Option U64)
    (size : U64) (mode : RvAccess) :
    misalignedAccess (mc.hooked hooks) fuel m addr data size mode =
      misalignedAccess mc fuel m addr data size mode := by
  induction fuel generalizing m addr data size with
  | zero => rfl
  | succ fuel ih =>
      simp only [misalignedAccess, ih]
      rfl

theorem misalignedTwoPass_hooked (m : EmuMachine δ) (addr data size : U64) (mode : RvAccess) :
    misalignedTwoPass (mc.hooked hooks) m addr data size mode =
      misalignedTwoPass mc m addr data size mode := by
  simp only [misalignedTwoPass, misalignedAccess_hooked]

theorem rvAccessPhys_hooked (m : EmuMachine δ) (h : Nat) (addr data : U64) (sizeExp : Fin 4)
    (mode : RvAccess) (ignorePmp : Bool) :
    rvAccessPhys (mc.hooked hooks) m h addr data sizeExp mode ignorePmp =
      rvAccessPhys mc m h addr data sizeExp mode ignorePmp := by
  simp only [rvAccessPhys, rvAccessPhysUnchecked, misalignedTwoPass_hooked]
  rfl

theorem rvWalk_hooked (h : Nat) (vaddr : U64) (mode : RvAccess) (level : Nat) (m : EmuMachine δ)
    (ppn : U64) :
    rvWalk (mc.hooked hooks) h vaddr mode level m ppn = rvWalk mc h vaddr mode level m ppn := by
  induction level generalizing m ppn with
  | zero => rfl
  | succ level ih =>
      simp only [rvWalk, rvWalkLeaf, rvAccessPhys_hooked, ih]

theorem rvPagingRawLookup_hooked (m : EmuMachine δ) (h : Nat) (vaddr : U64) (mode : RvAccess) :
    rvPagingRawLookup (mc.hooked hooks) m h vaddr mode = rvPagingRawLookup mc m h vaddr mode :=
  rvWalk_hooked mc hooks h vaddr mode 3 m _

theorem rvPagingMiss_hooked (m : EmuMachine δ) (h : Nat) (vaddr : U64) (mode : RvAccess) :
    rvPagingMiss (mc.hooked hooks) m h vaddr mode = rvPagingMiss mc m h vaddr mode := by
  simp only [rvPagingMiss, rvPagingRawLookup_hooked]

theorem rvPagingLookup_hooked (m : EmuMachine δ) (h : Nat) (vaddr : U64) (mode : RvAccess) :
    rvPagingLookup (mc.hooked hooks) m h vaddr mode = rvPagingLookup mc m h vaddr mode := by
  simp only [rvPagingLookup, rvPagingMiss_hooked]

theorem rvAccessPhysPartial_hooked (m : EmuMachine δ) (h : Nat) (addr data size : U64)
    (mode : RvAccess) (ignorePmp : Bool) :
    rvAccessPhysPartial (mc.hooked hooks) m h addr data size mode ignorePmp =
      rvAccessPhysPartial mc m h addr data size mode ignorePmp := by
  simp only [rvAccessPhysPartial, misalignedTwoPass_hooked]

theorem rvAccessTwoPages_hooked (m : EmuMachine δ) (h : Nat) (vaddr data size : U64)
    (mode : RvAccess) (result0 result1 : RvTlbEntry) :
    rvAccessTwoPages (mc.hooked hooks) m h vaddr data size mode result0 result1 =
      rvAccessTwoPages mc m h vaddr data size mode result0 result1 := by
  simp only [rvAccessTwoPages, rvAccessPhysPartial_hooked]

theorem rvAccessVirtPageboundary_hooked (m : EmuMachine δ) (h : Nat) (vaddr data : U64)
    (sizeExp : Fin 4) (mode : RvAccess) :
    rvAccessVirtPageboundary (mc.hooked hooks) m h vaddr data sizeExp mode =
      rvAccessVirtPageboundary mc m h vaddr data sizeExp mode := by
  simp only [rvAccessVirtPageboundary, rvPagingLookup_hooked, rvAccessTwoPages_hooked]

/-- No access consults a hook. -/
theorem rvAccessVirt_hooked : rvAccessVirt (mc.hooked hooks) = rvAccessVirt mc := by
  funext m h vaddr data sizeExp mode
  simp only [rvAccessVirt, rvAccessVirtBy, rvAccessVirtPageboundary_hooked, rvPagingLookup_hooked,
    rvAccessPhys_hooked]

end Hooked

end Riscmulator
