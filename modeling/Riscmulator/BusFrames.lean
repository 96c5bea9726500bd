import Riscmulator.Paging

/-! What memory accesses do to the devices and the interrupt lines: nothing but
the calls they make to the callbacks of the MMIO regions. -/

namespace Riscmulator

variable {δ : Type}

/-- The bus after a sequence of callbacks of the machine's regions. -/
inductive BusReach (mc : EmuConfig δ) (first : DeviceBus δ) : DeviceBus δ → Prop
  | refl : BusReach mc first first
  | read {bus : DeviceBus δ} (before : BusReach mc first bus) {r : EmuMmioRegion δ}
      (region : r ∈ mc.mmio) (offset : U64) (size : U8) :
      BusReach mc first (r.read bus offset size).2
  | write {bus : DeviceBus δ} (before : BusReach mc first bus) {r : EmuMmioRegion δ}
      (region : r ∈ mc.mmio) (offset : U64) (size : U8) (data : U64) :
      BusReach mc first (r.write bus offset size data).2

theorem BusReach.trans {mc : EmuConfig δ} {first middle third : DeviceBus δ}
    (left : BusReach mc first middle) (right : BusReach mc middle third) : BusReach mc first third := by
  induction right with
  | refl => exact left
  | read _ region offset size ih => exact .read ih region offset size
  | write _ region offset size data ih => exact .write ih region offset size data

theorem BusReach.of_eq {mc : EmuConfig δ} {first middle : DeviceBus δ} (same : middle = first) :
    BusReach mc first middle := same ▸ .refl

/-! ### The bus of a machine -/

@[simp] theorem EmuMachine.bus_setBus (m : EmuMachine δ) (bus : DeviceBus δ) :
    (m.setBus bus).bus = bus := rfl

/-- A core that keeps its interrupt lines and its timer flag. -/
structure SameLines (cpu cpu' : RvCpu) : Prop where
  irqPending : cpu'.irqPending = cpu.irqPending
  clintTimerArmed : cpu'.clintTimerArmed = cpu.clintTimerArmed

theorem SameLines.refl (cpu : RvCpu) : SameLines cpu cpu := ⟨rfl, rfl⟩

theorem SameLines.trans {first middle third : RvCpu} (left : SameLines first middle)
    (right : SameLines middle third) : SameLines first third :=
  ⟨right.irqPending.trans left.irqPending, right.clintTimerArmed.trans left.clintTimerArmed⟩

theorem EmuMachine.bus_setCpu {m : EmuMachine δ} {h : Nat} {cpu : RvCpu}
    (same : SameLines (m.cpus h) cpu) : (m.setCpu h cpu).bus = m.bus := by
  simp only [EmuMachine.bus, DeviceBus.mk.injEq]
  refine ⟨rfl, ?_, ?_⟩
  · funext i
    by_cases mine : i = h
    · rw [mine, EmuMachine.setCpu_same, same.irqPending]
    · rw [EmuMachine.setCpu_other _ _ mine]
  · funext i
    by_cases mine : i = h
    · rw [mine, EmuMachine.setCpu_same, same.clintTimerArmed]
    · rw [EmuMachine.setCpu_other _ _ mine]

@[simp] theorem EmuMachine.bus_setTlb (m : EmuMachine δ) (h : Nat) (tlb : RvTlb) :
    (m.setTlb h tlb).bus = m.bus := EmuMachine.bus_setCpu ⟨rfl, rfl⟩

/-! ### Physical accesses -/

section Accesses

variable (mc : EmuConfig δ)

theorem ramTransfer_bus (m : EmuMachine δ) (addr : U64) (data : Option U64) (len : U64)
    (mode : RvAccess) : (ramTransfer mc m addr data len mode).machine.bus = m.bus := by
  cases data with
  | none => rfl
  | some d =>
      simp only [ramTransfer]
      split <;> rfl

variable {mc}

theorem mmioDispatch_bus (m : EmuMachine δ) {r : EmuMmioRegion δ} (region : r ∈ mc.mmio)
    (addr : U64) (data : Option U64) (size : U8) (mode : RvAccess) :
    BusReach mc m.bus (mmioDispatch m r addr data size mode).machine.bus := by
  cases data with
  | none => exact .refl
  | some d =>
      simp only [mmioDispatch]
      split
      · exact .write .refl region _ _ _
      · exact .read .refl region _ _

variable (mc)

theorem misalignedAccess_bus (fuel : Nat) (m : EmuMachine δ) (addr : U64) (data : Option U64)
    (size : U64) (mode : RvAccess) :
    BusReach mc m.bus (misalignedAccess mc fuel m addr data size mode).machine.bus := by
  induction fuel generalizing m addr data size with
  | zero => exact .refl
  | succ fuel ih =>
      simp only [misalignedAccess]
      split
      · exact .refl
      split
      · exact (BusReach.of_eq (ramTransfer_bus mc m addr data _ mode)).trans (ih _ _ _ _)
      split
      · exact .refl
      · next r found =>
          have region : r ∈ mc.mmio := List.mem_of_find?_eq_some found
          have dispatched := mmioDispatch_bus m region addr data
            ((clipPart addr size r.limit).setWidth 8) mode
          split
          · exact dispatched
          · exact dispatched.trans (ih _ _ _ _)

theorem misalignedTwoPass_bus (m : EmuMachine δ) (addr data size : U64) (mode : RvAccess) :
    BusReach mc m.bus (misalignedTwoPass mc m addr data size mode).machine.bus := by
  have pass := misalignedAccess_bus mc size.toNat m addr none size mode
  simp only [misalignedTwoPass]
  split
  · exact pass
  · exact pass.trans (misalignedAccess_bus mc _ _ addr _ size mode)

theorem rvAccessPhysPartial_bus (m : EmuMachine δ) (h : Nat) (addr data size : U64)
    (mode : RvAccess) (ignorePmp : Bool) :
    BusReach mc m.bus (rvAccessPhysPartial mc m h addr data size mode ignorePmp).machine.bus := by
  simp only [rvAccessPhysPartial]
  split
  · exact .refl
  · exact misalignedTwoPass_bus mc m addr data size mode

theorem rvAccessPhys_bus (m : EmuMachine δ) (h : Nat) (addr data : U64) (sizeExp : Fin 4)
    (mode : RvAccess) (ignorePmp : Bool) :
    BusReach mc m.bus (rvAccessPhys mc m h addr data sizeExp mode ignorePmp).machine.bus := by
  simp only [rvAccessPhys]
  split
  · exact .refl
  simp only [rvAccessPhysUnchecked]
  split
  · exact BusReach.of_eq (ramTransfer_bus mc m addr _ _ mode)
  split
  · exact misalignedTwoPass_bus mc m addr data _ mode
  split
  · next r found => exact mmioDispatch_bus m (List.mem_of_find?_eq_some found) addr _ _ mode
  · exact .refl

/-! ### Page-table walks and virtual accesses -/

theorem rvWalkLeaf_bus (m : EmuMachine δ) (h : Nat) (vaddr : U64) (mode : RvAccess) (level : Nat)
    (ptePaddr pte : U64) (ptePmp : U8) :
    BusReach mc m.bus (rvWalkLeaf mc m h vaddr mode level ptePaddr pte ptePmp).machine.bus := by
  have stored := rvAccessPhys_bus mc m h ptePaddr (pte ||| rvSetfl mode) 3 .store true
  simp only [rvWalkLeaf]
  split_ifs
  · exact .refl
  · exact .refl
  · exact .refl
  · exact stored
  · exact stored
  · exact .refl

theorem rvWalk_bus (h : Nat) (vaddr : U64) (mode : RvAccess) (level : Nat) (m : EmuMachine δ)
    (ppn : U64) : BusReach mc m.bus (rvWalk mc h vaddr mode level m ppn).machine.bus := by
  induction level generalizing m ppn with
  | zero => exact .refl
  | succ level ih =>
      have loaded := rvAccessPhys_bus mc m h (rvPtePaddr ppn vaddr level) 0 3 .load true
      simp only [rvWalk]
      split_ifs
      · exact .refl
      · exact loaded
      · exact loaded
      · exact loaded.trans (rvWalkLeaf_bus mc _ h vaddr mode level _ _ _)
      · exact loaded.trans (ih _ _)

theorem rvPagingMiss_bus (m : EmuMachine δ) (h : Nat) (vaddr : U64) (mode : RvAccess) :
    BusReach mc m.bus (rvPagingMiss mc m h vaddr mode).machine.bus := by
  have walked : BusReach mc m.bus (rvPagingRawLookup mc m h vaddr mode).machine.bus :=
    rvWalk_bus mc h vaddr mode 3 m _
  simp only [rvPagingMiss]
  split_ifs
  · exact walked
  · exact walked
  · rw [EmuMachine.bus_setTlb]
    exact walked

theorem rvPagingLookup_bus (m : EmuMachine δ) (h : Nat) (vaddr : U64) (mode : RvAccess) :
    BusReach mc m.bus (rvPagingLookup mc m h vaddr mode).machine.bus := by
  simp only [rvPagingLookup]
  split
  · exact .refl
  · next col _ =>
      have missed := rvPagingMiss_bus mc
        (m.setTlb h ((m.cpus h).tlb.clearValid (rvTlbRow vaddr) col)) h vaddr mode
      rw [EmuMachine.bus_setTlb] at missed
      exact missed
  · exact rvPagingMiss_bus mc m h vaddr mode

theorem rvAccessTwoPages_bus (m : EmuMachine δ) (h : Nat) (vaddr data size : U64) (mode : RvAccess)
    (result0 result1 : RvTlbEntry) :
    BusReach mc m.bus (rvAccessTwoPages mc m h vaddr data size mode result0 result1).machine.bus := by
  have first := rvAccessPhysPartial_bus mc m h (rvTranslate result0 vaddr) data
    (rvNextPage vaddr - vaddr) mode true
  simp only [rvAccessTwoPages]
  split
  · exact first
  · exact first.trans (rvAccessPhysPartial_bus mc _ h _ _ _ mode true)

theorem rvAccessVirt_bus (m : EmuMachine δ) (h : Nat) (vaddr data : U64) (sizeExp : Fin 4)
    (mode : RvAccess) :
    BusReach mc m.bus (rvAccessVirt mc m h vaddr data sizeExp mode).machine.bus := by
  have looked := rvPagingLookup_bus mc m h vaddr mode
  simp only [rvAccessVirt, rvAccessVirtBy]
  split
  · exact rvAccessPhys_bus mc m h vaddr data sizeExp mode false
  split
  · exact .refl
  split
  · simp only [rvAccessVirtPageboundary]
    split
    · exact .refl
    split
    · exact looked
    split
    · exact looked.trans (rvPagingLookup_bus mc _ h _ mode)
    · exact (looked.trans (rvPagingLookup_bus mc _ h _ mode)).trans
        (rvAccessTwoPages_bus mc _ h vaddr data _ mode _ _)
  split
  · exact looked
  · exact looked.trans (rvAccessPhys_bus mc _ h _ data sizeExp mode true)

end Accesses

end Riscmulator
