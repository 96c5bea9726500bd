import Mathlib.Data.List.Find
import Mathlib.Data.List.Pairwise
import Riscmulator.Runs

/-! The table of MMIO regions: the order in which disjoint regions are added to it makes no
difference to what the machine does. -/

namespace Riscmulator

open Transition

variable {δ : Type}

/-- The machine with another table of regions. -/
def EmuConfig.withMmio (mc : EmuConfig δ) (mmio : List (EmuMmioRegion δ)) : EmuConfig δ :=
  { mc with mmio := mmio }

/-- `emu_machine_add_mmio`, where its `realloc` succeeds: the region goes to the end. -/
def emuMachineAddMmio (mc : EmuConfig δ) (region : EmuMmioRegion δ) : EmuConfig δ :=
  mc.withMmio (mc.mmio ++ [region])

theorem emuMachineAddMmio_all (mc : EmuConfig δ) (regions : List (EmuMmioRegion δ)) :
    regions.foldl emuMachineAddMmio mc = mc.withMmio (mc.mmio ++ regions) := by
  induction regions generalizing mc with
  | nil =>
      rw [List.append_nil]
      rfl
  | cons region regions ih =>
      rw [List.foldl_cons, ih, emuMachineAddMmio]
      simp only [EmuConfig.withMmio, List.append_assoc, List.singleton_append]

/-- No address is in two of the regions. -/
def ApartRegions (regions : List (EmuMmioRegion δ)) : Prop :=
  regions.Pairwise fun r s => ∀ addr, ¬(r.holdsByte addr = true ∧ s.holdsByte addr = true)

theorem ApartRegions.unique {regions : List (EmuMmioRegion δ)} (apart : ApartRegions regions)
    {r s : EmuMmioRegion δ} (first : r ∈ regions) (second : s ∈ regions) {addr : U64}
    (holds : r.holdsByte addr = true) (holds' : s.holdsByte addr = true) : r = s := by
  by_contra other
  have symmetric : Std.Symm fun r s : EmuMmioRegion δ =>
      ∀ addr, ¬(r.holdsByte addr = true ∧ s.holdsByte addr = true) :=
    ⟨fun _ _ apart addr both => apart addr both.symm⟩
  exact apart.forall first second other addr ⟨holds, holds'⟩

theorem apart_of_below {r s : EmuMmioRegion δ} (below : r.limit ≤ s.base) (addr : U64) :
    ¬(r.holdsByte addr = true ∧ s.holdsByte addr = true) := by
  simp only [EmuMmioRegion.holdsByte, Bool.and_eq_true, decide_eq_true_eq]
  rintro ⟨⟨_, low⟩, high, _⟩
  bv_omega

/-- An aligned range that RAM does not hold ends below 2^64, if RAM starts below the last
eight bytes: the range at the very top would pass for one inside RAM. -/
theorem holdsByte_of_holdsRange {mc : EmuConfig δ} (low : mc.ramStart ≤ 0xfffffffffffffff8)
    {r : EmuMmioRegion δ} {addr : U64} {sizeExp : Fin 4}
    (outside : ramHoldsRange mc addr (bit sizeExp.val) = false)
    (aligned : addr % bit sizeExp.val = 0)
    (holds : r.holdsRange addr (bit sizeExp.val) = true) : r.holdsByte addr = true := by
  simp only [ramHoldsRange, Bool.and_eq_false_iff, decide_eq_false_iff_not] at outside
  simp only [EmuMmioRegion.holdsRange, Bool.and_eq_true, decide_eq_true_eq] at holds
  simp only [EmuMmioRegion.holdsByte, Bool.and_eq_true, decide_eq_true_eq]
  refine ⟨holds.1, ?_⟩
  have sizes : ∀ e : Fin 4, bit e.val = 1 ∨ bit e.val = 2 ∨ bit e.val = 4 ∨ bit e.val = 8 := by
    decide
  have size := sizes sizeExp
  generalize bit sizeExp.val = n at *
  have multiple : addr.toNat % n.toNat = 0 := by
    rw [← BitVec.toNat_umod, aligned]
    rfl
  have top := addr.isLt
  rcases size with rfl | rfl | rfl | rfl <;>
    simp only [BitVec.reduceToNat] at multiple <;> bv_omega

/-- The regions do for the machine's own: every search of them comes to the same region. -/
structure SameMap (mc : EmuConfig δ) (regions : List (EmuMmioRegion δ)) : Prop where
  byte : ∀ addr, regions.find? (·.holdsByte addr) = mc.mmio.find? (·.holdsByte addr)
  range : ∀ addr (sizeExp : Fin 4), ramHoldsRange mc addr (bit sizeExp.val) = false →
    addr % bit sizeExp.val = 0 →
    regions.find? (·.holdsRange addr (bit sizeExp.val)) =
      mc.mmio.find? (·.holdsRange addr (bit sizeExp.val))

theorem sameMap_of_perm {mc : EmuConfig δ} {regions : List (EmuMmioRegion δ)}
    (low : mc.ramStart ≤ 0xfffffffffffffff8) (apart : ApartRegions mc.mmio)
    (order : mc.mmio.Perm regions) : SameMap mc regions := by
  constructor
  · intro addr
    refine (List.find?_eq_find?_of_perm order ?_).symm
    intro r first s second
    exact apart.unique first.1 second.1 first.2 second.2
  · intro addr sizeExp outside aligned
    refine (List.find?_eq_find?_of_perm order ?_).symm
    intro r first s second
    exact apart.unique first.1 second.1 (holdsByte_of_holdsRange low outside aligned first.2)
      (holdsByte_of_holdsRange low outside aligned second.2)

/-! ### The machine with the other table -/

section Same

variable {mc : EmuConfig δ} {regions : List (EmuMmioRegion δ)}

theorem misalignedAccess_sameMap (same : SameMap mc regions) (fuel : Nat) (m : EmuMachine δ)
    (addr : U64) (data : Option U64) (size : U64) (mode : RvAccess) :
    misalignedAccess (mc.withMmio regions) fuel m addr data size mode =
      misalignedAccess mc fuel m addr data size mode := by
  induction fuel generalizing m addr data size with
  | zero => rfl
  | succ fuel ih =>
      have find : (mc.withMmio regions).mmio.find? (·.holdsByte addr) =
          mc.mmio.find? (·.holdsByte addr) := same.byte addr
      simp only [misalignedAccess, ih, find]
      rfl

theorem rvAccessPhysPartial_sameMap (same : SameMap mc regions) :
    rvAccessPhysPartial (mc.withMmio regions) = rvAccessPhysPartial mc := by
  funext m h addr data size mode ignorePmp
  simp only [rvAccessPhysPartial, misalignedTwoPass, misalignedAccess_sameMap same]

theorem rvAccessPhys_sameMap (same : SameMap mc regions) :
    rvAccessPhys (mc.withMmio regions) = rvAccessPhys mc := by
  funext m h addr data sizeExp mode ignorePmp
  have holds : ramHoldsRange (mc.withMmio regions) addr (bit sizeExp.val) =
      ramHoldsRange mc addr (bit sizeExp.val) := rfl
  simp only [rvAccessPhys, rvAccessPhysUnchecked, misalignedTwoPass,
    misalignedAccess_sameMap same, holds]
  split
  · rfl
  split
  · rfl
  · next outside =>
      split
      · rfl
      · next aligned =>
          have find : (mc.withMmio regions).mmio.find? (·.holdsRange addr (bit sizeExp.val)) =
              mc.mmio.find? (·.holdsRange addr (bit sizeExp.val)) :=
            same.range addr sizeExp (Bool.not_eq_true _ ▸ outside) (not_not.mp aligned)
          rw [find]

theorem rvWalk_sameMap (same : SameMap mc regions) (h : Nat) (vaddr : U64) (mode : RvAccess)
    (level : Nat) (m : EmuMachine δ) (ppn : U64) :
    rvWalk (mc.withMmio regions) h vaddr mode level m ppn = rvWalk mc h vaddr mode level m ppn := by
  induction level generalizing m ppn with
  | zero => rfl
  | succ level ih => simp only [rvWalk, rvWalkLeaf, rvAccessPhys_sameMap same, ih]

theorem rvPagingMiss_sameMap (same : SameMap mc regions) :
    rvPagingMiss (mc.withMmio regions) = rvPagingMiss mc := by
  funext m h vaddr mode
  have walked : rvPagingRawLookup (mc.withMmio regions) m h vaddr mode =
      rvPagingRawLookup mc m h vaddr mode := rvWalk_sameMap same h vaddr mode 3 m _
  unfold rvPagingMiss
  rw [walked]

theorem rvPagingLookup_sameMap (same : SameMap mc regions) :
    rvPagingLookup (mc.withMmio regions) = rvPagingLookup mc := by
  funext m h vaddr mode
  simp only [rvPagingLookup, rvPagingMiss_sameMap same]

theorem rvAccessVirt_sameMap (same : SameMap mc regions) :
    rvAccessVirt (mc.withMmio regions) = rvAccessVirt mc := by
  funext m h vaddr data sizeExp mode
  simp only [rvAccessVirt, rvAccessVirtBy, rvAccessVirtPageboundary, rvAccessTwoPages,
    rvAccessPhys_sameMap same, rvAccessPhysPartial_sameMap same, rvPagingLookup_sameMap same]

theorem machineStep_sameMap (same : SameMap mc regions) :
    machineStep (mc.withMmio regions) = machineStep mc := by
  unfold machineStep
  rw [rvAccessVirt_sameMap same]
  rfl

end Same

/-- Regions that do not overlap can be added in any order: from any state, and whatever
happens to the machine, it does the same. -/
theorem mmio_order (mc : EmuConfig δ) (low : mc.ramStart ≤ 0xfffffffffffffff8)
    {regions regions' : List (EmuMmioRegion δ)} (order : regions.Perm regions')
    (apart : ApartRegions (mc.mmio ++ regions)) (m : EmuMachine δ)
    (events : List (MachineEvent δ)) :
    run (machineStep (regions'.foldl emuMachineAddMmio mc)) m events =
      run (machineStep (regions.foldl emuMachineAddMmio mc)) m events := by
  have same : SameMap (mc.withMmio (mc.mmio ++ regions)) (mc.mmio ++ regions') :=
    sameMap_of_perm low apart (order.append_left mc.mmio)
  rw [emuMachineAddMmio_all, emuMachineAddMmio_all, ← machineStep_sameMap same]
  rfl

/-- A page that reads as one word. -/
def wordRegion (base word : U64) : EmuMmioRegion Unit where
  base := base
  size := 0x1000
  read bus _ _ := ((true, word), bus)
  write bus _ _ _ := (false, bus)

theorem mmio_order_words :
    run (machineStep ([wordRegion 0x3000 2, wordRegion 0x2000 1].foldl emuMachineAddMmio
        (.ramOnly 0 0x1000 1))) (emuMachineInit ()) [.insn 0 0x000020b7, .insn 0 0x0000b103] =
      run (machineStep ([wordRegion 0x2000 1, wordRegion 0x3000 2].foldl emuMachineAddMmio
        (.ramOnly 0 0x1000 1))) (emuMachineInit ()) [.insn 0 0x000020b7, .insn 0 0x0000b103] :=
  mmio_order (.ramOnly 0 0x1000 1) (by decide) (.swap _ _ _)
    (List.pairwise_pair.mpr (apart_of_below (by decide))) _ _

end Riscmulator
