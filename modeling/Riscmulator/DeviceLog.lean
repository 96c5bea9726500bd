import Riscmulator.Paging

/-! Devices that record which writes they accept, and that nothing else changes
when they do. -/

namespace Riscmulator

variable {δ : Type}

/-! ### Logged devices -/

/-- A write that a device has accepted. -/
structure DeviceWrite where
  addr : U64
  size : U8
  data : U64
  deriving DecidableEq, Repr

/-- The state of the devices, and the writes they have accepted so far. -/
abbrev Logged (δ : Type) := δ × List DeviceWrite

def DeviceBus.forget (bus : DeviceBus (Logged δ)) : DeviceBus δ :=
  ⟨bus.device.1, bus.irqPending, bus.clintTimerArmed⟩

def DeviceBus.keep (bus : DeviceBus δ) (log : List DeviceWrite) : DeviceBus (Logged δ) :=
  ⟨(bus.device, log), bus.irqPending, bus.clintTimerArmed⟩

/-- The same device, which adds every write it accepts to the log. -/
def EmuMmioRegion.logged (r : EmuMmioRegion δ) : EmuMmioRegion (Logged δ) where
  base := r.base
  size := r.size
  read bus offset size :=
    let out := r.read bus.forget offset size
    (out.1, out.2.keep bus.device.2)
  write bus offset size data :=
    let out := r.write bus.forget offset size data
    (out.1, out.2.keep
      (if out.1 then bus.device.2 ++ [⟨r.base + offset, size, data⟩] else bus.device.2))

/-- The same machine set-up with logged devices. Memory accesses use no hooks. -/
def EmuConfig.logged (mc : EmuConfig δ) : EmuConfig (Logged δ) where
  ramStart := mc.ramStart
  ramEnd := mc.ramEnd
  cpuCount := mc.cpuCount
  mmio := mc.mmio.map EmuMmioRegion.logged
  trapHook := fun _ => none
  rvFloatExactMath := mc.rvFloatExactMath
  fpu := mc.fpu
  softfloat := mc.softfloat

/-- The machine with an empty log. -/
def EmuMachine.logged (m : EmuMachine δ) : EmuMachine (Logged δ) :=
  ⟨m.ram, m.cpus, m.reservations, (m.device, []), m.feround, m.aborted⟩

def EmuMachine.forget (m : EmuMachine (Logged δ)) : EmuMachine δ :=
  ⟨m.ram, m.cpus, m.reservations, m.device.1, m.feround, m.aborted⟩

@[simp] theorem EmuMachine.forget_logged (m : EmuMachine δ) : m.logged.forget = m := rfl

/-- The outcome without the log. -/
structure MemOutcome.Forgets (logged : MemOutcome (Logged δ)) (out : MemOutcome δ) : Prop where
  res : logged.res = out.res
  machine : logged.machine.forget = out.machine
  data : logged.data = out.data
  touched : logged.touched = out.touched

structure WalkOutcome.Forgets (logged : WalkOutcome (Logged δ)) (out : WalkOutcome δ) : Prop where
  res : logged.res = out.res
  machine : logged.machine.forget = out.machine
  entry : logged.entry = out.entry

structure LookupOutcome.Forgets (logged : LookupOutcome (Logged δ)) (out : LookupOutcome δ) :
    Prop where
  res : logged.res = out.res
  machine : logged.machine.forget = out.machine
  entry : logged.entry = out.entry
  path : logged.path = out.path

/-! ### Physical accesses -/

section Accesses

variable {mc : EmuConfig δ} {m : EmuMachine (Logged δ)} {h : Nat} {mode : RvAccess}

theorem EmuConfig.find_logged (mc : EmuConfig δ) (p : EmuMmioRegion (Logged δ) → Bool) :
    mc.logged.mmio.find? p = (mc.mmio.find? fun r => p r.logged).map EmuMmioRegion.logged := by
  rw [EmuConfig.logged, List.find?_map]
  rfl

theorem ramTransfer_forgets (addr : U64) (data : Option U64) (len : U64) :
    (ramTransfer mc.logged m addr data len mode).Forgets
      (ramTransfer mc m.forget addr data len mode) := by
  cases data with
  | none => exact ⟨rfl, rfl, rfl, rfl⟩
  | some d =>
      simp only [ramTransfer]
      split <;> exact ⟨rfl, rfl, rfl, rfl⟩

theorem mmioDispatch_forgets (r : EmuMmioRegion δ) (addr : U64) (data : Option U64) (size : U8) :
    (mmioDispatch m r.logged addr data size mode).Forgets
      (mmioDispatch m.forget r addr data size mode) := by
  cases data with
  | none => exact ⟨rfl, rfl, rfl, rfl⟩
  | some d =>
      simp only [mmioDispatch]
      split <;> exact ⟨rfl, rfl, rfl, rfl⟩

theorem misalignedAccess_forgets (fuel : Nat) (m : EmuMachine (Logged δ)) (addr : U64)
    (data : Option U64) (size : U64) :
    (misalignedAccess mc.logged fuel m addr data size mode).Forgets
      (misalignedAccess mc fuel m.forget addr data size mode) := by
  induction fuel generalizing m addr data size with
  | zero => exact ⟨rfl, rfl, rfl, rfl⟩
  | succ fuel ih =>
      by_cases done : size = 0
      · simp only [misalignedAccess, done, if_true]
        exact ⟨rfl, rfl, rfl, rfl⟩
      have holds : ramHoldsByte mc.logged addr = ramHoldsByte mc addr := rfl
      have find : mc.logged.mmio.find? (·.holdsByte addr) =
          (mc.mmio.find? (·.holdsByte addr)).map EmuMmioRegion.logged := mc.find_logged _
      have ramEnd : mc.logged.ramEnd = mc.ramEnd := rfl
      simp only [misalignedAccess, done, if_false, holds, find, ramEnd]
      split
      · have first : (ramTransfer mc.logged m addr data (clipPart addr size mc.ramEnd) mode).Forgets
            (ramTransfer mc m.forget addr data (clipPart addr size mc.ramEnd) mode) :=
          ramTransfer_forgets addr data _
        have rest := ih (ramTransfer mc.logged m addr data (clipPart addr size mc.ramEnd)
          mode).machine (addr + clipPart addr size mc.ramEnd)
          (ramTransfer mc.logged m addr data (clipPart addr size mc.ramEnd) mode).data
          (size - clipPart addr size mc.ramEnd)
        rw [first.machine, first.data] at rest
        rw [first.data]
        exact ⟨rest.res, rest.machine, rest.data, congrArg₂ _ first.touched rest.touched⟩
      · cases mc.mmio.find? (·.holdsByte addr) with
        | none => exact ⟨rfl, rfl, rfl, rfl⟩
        | some r =>
            have limit : r.logged.limit = r.limit := rfl
            simp only [Option.map_some, limit]
            have first : (mmioDispatch m r.logged addr data
                ((clipPart addr size r.limit).setWidth 8) mode).Forgets
                (mmioDispatch m.forget r addr data ((clipPart addr size r.limit).setWidth 8) mode) :=
              mmioDispatch_forgets r addr data _
            rw [first.res]
            split
            · exact first
            · have rest := ih (mmioDispatch m r.logged addr data
                ((clipPart addr size r.limit).setWidth 8) mode).machine
                (addr + clipPart addr size r.limit)
                (mmioDispatch m r.logged addr data ((clipPart addr size r.limit).setWidth 8)
                  mode).data (size - clipPart addr size r.limit)
              rw [first.machine, first.data] at rest
              rw [first.data]
              exact ⟨rest.res, rest.machine, rest.data, congrArg₂ _ first.touched rest.touched⟩

theorem misalignedTwoPass_forgets (addr data size : U64) :
    (misalignedTwoPass mc.logged m addr data size mode).Forgets
      (misalignedTwoPass mc m.forget addr data size mode) := by
  have pass : (misalignedAccess mc.logged size.toNat m addr none size mode).Forgets
      (misalignedAccess mc size.toNat m.forget addr none size mode) :=
    misalignedAccess_forgets _ m addr none size
  simp only [misalignedTwoPass, pass.res]
  split
  · exact ⟨rfl, pass.machine, rfl, pass.touched⟩
  · rw [← pass.machine]
    exact misalignedAccess_forgets _ _ addr (some data) size

theorem rvAccessPhysPartial_forgets (addr data size : U64) (ignorePmp : Bool) :
    (rvAccessPhysPartial mc.logged m h addr data size mode ignorePmp).Forgets
      (rvAccessPhysPartial mc m.forget h addr data size mode ignorePmp) := by
  have cpus : m.forget.cpus = m.cpus := rfl
  simp only [rvAccessPhysPartial, cpus]
  split
  · exact ⟨rfl, rfl, rfl, rfl⟩
  · exact misalignedTwoPass_forgets addr data size

theorem rvAccessPhys_forgets (m : EmuMachine (Logged δ)) (addr data : U64) (sizeExp : Fin 4)
    (ignorePmp : Bool) :
    (rvAccessPhys mc.logged m h addr data sizeExp mode ignorePmp).Forgets
      (rvAccessPhys mc m.forget h addr data sizeExp mode ignorePmp) := by
  have cpus : m.forget.cpus = m.cpus := rfl
  have holds : ramHoldsRange mc.logged addr (bit sizeExp.val) =
      ramHoldsRange mc addr (bit sizeExp.val) := rfl
  have find : mc.logged.mmio.find? (·.holdsRange addr (bit sizeExp.val)) =
      (mc.mmio.find? (·.holdsRange addr (bit sizeExp.val))).map EmuMmioRegion.logged :=
    mc.find_logged _
  simp only [rvAccessPhys, rvAccessPhysUnchecked, cpus, holds, find]
  split
  · exact ⟨rfl, rfl, rfl, rfl⟩
  split
  · exact ramTransfer_forgets addr (some data) _
  split
  · exact misalignedTwoPass_forgets addr data _
  · cases mc.mmio.find? (·.holdsRange addr (bit sizeExp.val)) with
    | none => exact ⟨rfl, rfl, rfl, rfl⟩
    | some r => exact mmioDispatch_forgets r addr (some data) _

/-! ### Translation -/

theorem rvWalkLeaf_forgets (m : EmuMachine (Logged δ)) (vaddr : U64) (level : Nat)
    (ptePaddr pte : U64) (ptePmp : U8) :
    (rvWalkLeaf mc.logged m h vaddr mode level ptePaddr pte ptePmp).Forgets
      (rvWalkLeaf mc m.forget h vaddr mode level ptePaddr pte ptePmp) := by
  have cpus : m.forget.cpus = m.cpus := rfl
  have stored : (rvAccessPhys mc.logged m h ptePaddr (pte ||| rvSetfl mode) 3 .store true).Forgets
      (rvAccessPhys mc m.forget h ptePaddr (pte ||| rvSetfl mode) 3 .store true) :=
    rvAccessPhys_forgets m ptePaddr _ 3 true
  simp only [rvWalkLeaf, cpus, stored.res]
  split
  · exact ⟨rfl, rfl, rfl⟩
  split
  · exact ⟨rfl, rfl, rfl⟩
  split
  · split
    · exact ⟨rfl, rfl, rfl⟩
    split
    · exact ⟨rfl, stored.machine, rfl⟩
    · exact ⟨rfl, stored.machine, rfl⟩
  · exact ⟨rfl, rfl, rfl⟩

theorem rvWalk_forgets (vaddr : U64) (level : Nat) (m : EmuMachine (Logged δ)) (ppn : U64) :
    (rvWalk mc.logged h vaddr mode level m ppn).Forgets
      (rvWalk mc h vaddr mode level m.forget ppn) := by
  induction level generalizing m ppn with
  | zero => exact ⟨rfl, rfl, rfl⟩
  | succ level ih =>
      have cpus : m.forget.cpus = m.cpus := rfl
      have read : (rvAccessPhys mc.logged m h (rvPtePaddr ppn vaddr level) 0 3 .load true).Forgets
          (rvAccessPhys mc m.forget h (rvPtePaddr ppn vaddr level) 0 3 .load true) :=
        rvAccessPhys_forgets m _ 0 3 true
      simp only [rvWalk, cpus, read.res, read.data]
      split
      · exact ⟨rfl, rfl, rfl⟩
      split
      · exact ⟨rfl, read.machine, rfl⟩
      split
      · exact ⟨rfl, read.machine, rfl⟩
      split
      · rw [← read.machine]
        exact rvWalkLeaf_forgets _ vaddr level _ _ _
      · rw [← read.machine]
        exact ih _ _

theorem rvPagingMiss_forgets (m : EmuMachine (Logged δ)) (vaddr : U64) :
    (rvPagingMiss mc.logged m h vaddr mode).Forgets (rvPagingMiss mc m.forget h vaddr mode) := by
  have walked : (rvPagingRawLookup mc.logged m h vaddr mode).Forgets
      (rvPagingRawLookup mc m.forget h vaddr mode) := rvWalk_forgets vaddr 3 m _
  have cpus : (rvPagingRawLookup mc m.forget h vaddr mode).machine.cpus =
      (rvPagingRawLookup mc.logged m h vaddr mode).machine.cpus := by
    rw [← walked.machine]
    rfl
  simp only [rvPagingMiss, walked.res, walked.entry, cpus]
  split
  · exact ⟨rfl, walked.machine, rfl, rfl⟩
  split
  · exact ⟨rfl, walked.machine, rfl, rfl⟩
  · refine ⟨rfl, ?_, rfl, rfl⟩
    rw [← walked.machine]
    rfl

theorem rvPagingLookup_forgets (m : EmuMachine (Logged δ)) (vaddr : U64) :
    (rvPagingLookup mc.logged m h vaddr mode).Forgets
      (rvPagingLookup mc m.forget h vaddr mode) := by
  have cpus : m.forget.cpus = m.cpus := rfl
  simp only [rvPagingLookup, cpus]
  split
  · exact ⟨rfl, rfl, rfl, rfl⟩
  · exact rvPagingMiss_forgets _ vaddr
  · exact rvPagingMiss_forgets m vaddr

/-! ### Virtual accesses -/

theorem rvAccessTwoPages_forgets (m : EmuMachine (Logged δ)) (vaddr data size : U64)
    (result0 result1 : RvTlbEntry) :
    (rvAccessTwoPages mc.logged m h vaddr data size mode result0 result1).Forgets
      (rvAccessTwoPages mc m.forget h vaddr data size mode result0 result1) := by
  have first : (rvAccessPhysPartial mc.logged m h (rvTranslate result0 vaddr) data
      (rvNextPage vaddr - vaddr) mode true).Forgets
      (rvAccessPhysPartial mc m.forget h (rvTranslate result0 vaddr) data
        (rvNextPage vaddr - vaddr) mode true) := rvAccessPhysPartial_forgets _ data _ true
  simp only [rvAccessTwoPages, first.res, first.data, first.touched]
  split
  · exact first
  · generalize (rvAccessPhysPartial mc m.forget h (rvTranslate result0 vaddr) data
      (rvNextPage vaddr - vaddr) mode true).data.getD data >>>
        (8 * (rvNextPage vaddr - vaddr).toNat) = rest
    have second : (rvAccessPhysPartial mc.logged (rvAccessPhysPartial mc.logged m h
        (rvTranslate result0 vaddr) data (rvNextPage vaddr - vaddr) mode true).machine h
        (rvTranslate result1 (rvNextPage vaddr)) rest (vaddr + size - rvNextPage vaddr) mode
        true).Forgets
        (rvAccessPhysPartial mc _ h (rvTranslate result1 (rvNextPage vaddr)) rest
          (vaddr + size - rvNextPage vaddr) mode true) := rvAccessPhysPartial_forgets _ rest _ true
    rw [first.machine] at second
    refine ⟨second.res, second.machine, ?_, ?_⟩
    · rw [second.data]
    · rw [second.touched]

/-- The log changes nothing else: an access by logged devices is the access, and a log. -/
theorem rvAccessVirt_forgets (mc : EmuConfig δ) (m : EmuMachine (Logged δ)) (h : Nat)
    (vaddr data : U64) (sizeExp : Fin 4) (mode : RvAccess) :
    (rvAccessVirt mc.logged m h vaddr data sizeExp mode).Forgets
      (rvAccessVirt mc m.forget h vaddr data sizeExp mode) := by
  have cpus : m.forget.cpus = m.cpus := rfl
  have look0 : (rvPagingLookup mc.logged m h vaddr mode).Forgets
      (rvPagingLookup mc m.forget h vaddr mode) := rvPagingLookup_forgets m vaddr
  have look1 : (rvPagingLookup mc.logged (rvPagingLookup mc.logged m h vaddr mode).machine h
      (rvNextPage vaddr) mode).Forgets
      (rvPagingLookup mc (rvPagingLookup mc m.forget h vaddr mode).machine h
        (rvNextPage vaddr) mode) := by
    rw [← look0.machine]
    exact rvPagingLookup_forgets _ _
  simp only [rvAccessVirt, rvAccessVirtBy, rvAccessVirtPageboundary, cpus, look0.res, look0.entry,
    look1.res, look1.entry]
  split
  · exact rvAccessPhys_forgets m vaddr data sizeExp false
  split
  · exact ⟨rfl, rfl, rfl, rfl⟩
  split
  · split
    · exact ⟨rfl, rfl, rfl, rfl⟩
    split
    · exact ⟨rfl, look0.machine, rfl, rfl⟩
    split
    · exact ⟨rfl, look1.machine, rfl, rfl⟩
    · rw [← look1.machine]
      exact rvAccessTwoPages_forgets _ _ _ _ _ _
  · split
    · exact ⟨rfl, look0.machine, rfl, rfl⟩
    · rw [← look0.machine]
      exact rvAccessPhys_forgets _ _ _ _ _

end Accesses

end Riscmulator
