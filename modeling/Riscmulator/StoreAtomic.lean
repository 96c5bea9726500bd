import Riscmulator.StoreCuts
import Riscmulator.TlbAddress

/-! Whether a store that faults is atomic: what its walks mark, and what its parts
have changed before the one that fails. -/

namespace Riscmulator

open Attempts

variable {δ : Type}

/-! ### What the walks mark -/

/-- RAM after the A and D bits of some leaf entries are set, one after the other. -/
inductive LeafMarked (mc : EmuConfig δ) (ram : U64 → U8) : (U64 → U8) → Prop
  | same : LeafMarked mc ram ram
  | mark {marked : U64 → U8} {paddr : U64} : LeafMarked mc ram marked →
      ramHoldsRange mc paddr 8 = true → Sv39.valid (ramTable mc marked paddr) = true →
      Sv39.isLeaf (ramTable mc marked paddr) = true →
      LeafMarked mc ram (ramStore marked (paddr - mc.ramStart)
        (ramTable mc marked paddr ||| (bit rvPteABit ||| bit rvPteDBit)) 8)

section Walks

variable {mc : EmuConfig δ} {m : EmuMachine δ} {h : Nat} {vaddr : U64} {ram : U64 → U8}

/-- An aligned word that is not in RAM is in one device, or nowhere. -/
theorem rvAccessPhys_outside {paddr : U64} (aligned : paddr % 8 = 0)
    (outside : ramHoldsRange mc paddr 8 = false) (data : U64) (mode : RvAccess) :
    (rvAccessPhys mc m h paddr data 3 mode true).machine.ram = m.ram := by
  have size : bit (3 : Fin 4).val = 8 := rfl
  simp only [rvAccessPhys, rvAccessPhysUnchecked, size, aligned, outside, Bool.not_true,
    Bool.false_and, Bool.false_eq_true, if_false, ne_eq, not_true_eq_false]
  cases mc.mmio.find? (·.holdsRange paddr 8) with
  | none => rfl
  | some r =>
      simp only [mmioDispatch]
      split <;> rfl

theorem rvPtePaddr_aligned (ppn vaddr : U64) (level : Nat) : rvPtePaddr ppn vaddr level % 8 = 0 := by
  simp only [rvPtePaddr]
  generalize ((vaddr / rvCpuPageSize) >>> (9 * level)) &&& 0x1ff = index
  have sum : (ppn * rvCpuPageSize + index * 8).toNat =
      (ppn.toNat * 4096 % 2 ^ 64 + index.toNat * 8 % 2 ^ 64) % 2 ^ 64 := by
    rw [BitVec.toNat_add, BitVec.toNat_mul, BitVec.toNat_mul]
    rfl
  have multiple : (ppn * rvCpuPageSize + index * 8).toNat % 8 = 0 := by omega
  apply BitVec.eq_of_toNat_eq
  rw [BitVec.toNat_umod]
  exact multiple

/-- A walk for a store changes RAM by the marks of its leaf only. -/
theorem rvWalkLeaf_marked (marked : LeafMarked mc ram m.ram) {paddr : U64}
    (inRam : ramHoldsRange mc paddr 8 = true)
    (present : Sv39.valid (ramTable mc m.ram paddr) = true) (level : Nat) (ptePmp : U8) :
    LeafMarked mc ram (rvWalkLeaf mc m h vaddr .store level paddr (ramTable mc m.ram paddr)
      ptePmp).machine.ram := by
  simp only [rvWalkLeaf, rvAccessPhys_store inRam]
  split
  · exact marked
  split
  · exact marked
  next checked =>
  have permitted := ((checkAccess_ok_iff _ _ _).mp (not_not.mp checked)).2.1
  rw [rvLeafEntry_pte _ _ _ _ (lt_trans RvAccess.store.pteBit_lt (by decide))] at permitted
  have leaf := isLeaf_of_permitted permitted
  have stored := LeafMarked.mark marked inRam present leaf
  split_ifs
  · exact marked
  · exact stored
  · exact stored
  · exact marked

theorem rvWalkLeaf_outside {paddr pte : U64} (aligned : paddr % 8 = 0)
    (outside : ramHoldsRange mc paddr 8 = false) (mode : RvAccess) (level : Nat) (ptePmp : U8) :
    (rvWalkLeaf mc m h vaddr mode level paddr pte ptePmp).machine.ram = m.ram := by
  have stored : (rvAccessPhys mc m h paddr (pte ||| rvSetfl mode) 3 .store true).machine.ram = m.ram :=
    rvAccessPhys_outside aligned outside _ .store
  simp only [rvWalkLeaf]
  split_ifs <;> first | rfl | exact stored

theorem rvWalk_marked (level : Nat) (m : EmuMachine δ) (base : U64)
    (marked : LeafMarked mc ram m.ram) :
    LeafMarked mc ram (rvWalk mc h vaddr .store level m base).machine.ram := by
  induction level generalizing m base with
  | zero => exact marked
  | succ level ih =>
      cases inRam : ramHoldsRange mc (rvPtePaddr base vaddr level) 8 with
      | true =>
          obtain ⟨_, machine, data⟩ := rvAccessPhys_load m h inRam
          simp only [rvWalk, machine, data, Option.getD_some]
          split
          · exact marked
          split
          · exact marked
          split
          · exact marked
          next present =>
          split
          · rw [Bool.not_eq_true', Bool.not_eq_false] at present
            exact rvWalkLeaf_marked marked inRam present level _
          · exact ih m _ marked
      | false =>
          have aligned := rvPtePaddr_aligned base vaddr level
          have read : (rvAccessPhys mc m h (rvPtePaddr base vaddr level) 0 3 .load true).machine.ram =
              m.ram := rvAccessPhys_outside aligned inRam 0 .load
          rw [← read] at marked
          simp only [rvWalk]
          split
          · rw [read] at marked
            exact marked
          split
          · exact marked
          split
          · exact marked
          split
          · rw [rvWalkLeaf_outside aligned inRam]
            exact marked
          · exact ih _ _ marked

theorem rvPagingLookup_marked (m : EmuMachine δ) (vaddr : U64) (marked : LeafMarked mc ram m.ram) :
    LeafMarked mc ram (rvPagingLookup mc m h vaddr .store).machine.ram := by
  have missed : ∀ m : EmuMachine δ, LeafMarked mc ram m.ram →
      LeafMarked mc ram (rvPagingMiss mc m h vaddr .store).machine.ram := by
    intro m marked
    have walked : LeafMarked mc ram (rvPagingRawLookup mc m h vaddr .store).machine.ram :=
      rvWalk_marked 3 m _ marked
    simp only [rvPagingMiss]
    split_ifs <;> exact walked
  simp only [rvPagingLookup]
  split
  · exact marked
  · exact missed _ marked
  · exact missed m marked

/-- Before its parts are performed a store has changed RAM by marks only. -/
theorem storePlan_marked (mc : EmuConfig δ) (m : EmuMachine δ) (h : Nat) (vaddr data : U64)
    (sizeExp : Fin 4) :
    LeafMarked mc m.ram (storePlan mc m h vaddr data sizeExp).machine.ram := by
  have start : LeafMarked mc m.ram m.ram := .same
  have look0 := rvPagingLookup_marked (h := h) m vaddr start
  have look1 := rvPagingLookup_marked (h := h) _ (rvNextPage vaddr) look0
  simp only [storePlan]
  split_ifs <;> first | exact start | exact look0 | exact look1

/-- The walks of a store by logged devices are the walks, and a log. -/
theorem storePlan_forgets (mc : EmuConfig δ) (m : EmuMachine (Logged δ)) (h : Nat)
    (vaddr data : U64) (sizeExp : Fin 4) :
    (storePlan mc.logged m h vaddr data sizeExp).machine.forget =
      (storePlan mc m.forget h vaddr data sizeExp).machine := by
  have cpus : m.forget.cpus = m.cpus := rfl
  have look0 : (rvPagingLookup mc.logged m h vaddr .store).Forgets
      (rvPagingLookup mc m.forget h vaddr .store) := rvPagingLookup_forgets m vaddr
  have look1 : (rvPagingLookup mc.logged (rvPagingLookup mc.logged m h vaddr .store).machine h
      (rvNextPage vaddr) .store).Forgets
      (rvPagingLookup mc (rvPagingLookup mc m.forget h vaddr .store).machine h
        (rvNextPage vaddr) .store) := by
    rw [← look0.machine]
    exact rvPagingLookup_forgets _ _
  simp only [storePlan, cpus, look0.res, look1.res]
  split_ifs <;> first | rfl | exact look0.machine | exact look1.machine

end Walks

/-! ### Stores that fault -/

/-- The writes that devices accept in a store. -/
def storeLog (mc : EmuConfig δ) (m : EmuMachine δ) (h : Nat) (vaddr data : U64)
    (sizeExp : Fin 4) : List DeviceWrite :=
  (rvAccessVirt mc.logged m.logged h vaddr data sizeExp .store).machine.device.2

/-- A store that faults leaves RAM as its walks marked it, and no device has
accepted a write. -/
def StoreAtomic (mc : EmuConfig δ) (m : EmuMachine δ) (h : Nat) (vaddr data : U64)
    (sizeExp : Fin 4) : Prop :=
  let out := rvAccessVirt mc m h vaddr data sizeExp .store
  let walked := (storePlan mc m h vaddr data sizeExp).machine
  out.res ≠ .ok →
    LeafMarked mc m.ram walked.ram ∧ out.machine.ram = walked.ram ∧
      storeLog mc m h vaddr data sizeExp = []

/-- A part of the store fails after a walk has marked an entry that a device holds,
or after a part that changes RAM or goes to a device. -/
def TornStore (mc : EmuConfig δ) (m : EmuMachine δ) (h : Nat) (vaddr data : U64)
    (sizeExp : Fin 4) : Prop :=
  let plan := storePlan mc.logged m.logged h vaddr data sizeExp
  ∃ before part, FailsAt (StorePart.perform mc.logged) plan.parts plan.machine before part ∧
    (plan.machine.device.2 ≠ [] ∨
      ∃ earlier ∈ before, earlier.Changes mc.logged plan.machine.ram)

section Stores

variable {mc : EmuConfig δ} {m : EmuMachine (Logged δ)}
  {parts before : List (StorePart (Logged δ))} {part : StorePart (Logged δ)}

theorem WellCut.upTo (cut : WellCut mc.logged parts)
    (fails : FailsAt (StorePart.perform mc.logged) parts m before part) :
    WellCut mc.logged before ∧ part.Known mc.logged := by
  rcases fails.split with ⟨after, rfl⟩
  refine ⟨⟨fun early member => cut.known early (List.mem_append_left _ member),
    (List.pairwise_append.mp cut.apart).1⟩, ?_⟩
  exact cut.known part (List.mem_append_right _ List.mem_cons_self)

/-- A run that fails ends with the RAM and the log that it had before the part that fails. -/
theorem failsAt_trace (cut : WellCut mc.logged parts)
    (fails : FailsAt (StorePart.perform mc.logged) parts m before part) :
    (runAll (StorePart.perform mc.logged) parts m).2.ram =
        (runAll (StorePart.perform mc.logged) before m).2.ram ∧
      (runAll (StorePart.perform mc.logged) parts m).2.device.2 =
        (runAll (StorePart.perform mc.logged) before m).2.device.2 := by
  rw [fails.ends]
  exact (StorePart.perform_log (cut.upTo fails).2).2 fails.failed

end Stores

/-- A machine with a page of RAM, and a device above it that rejects every write. -/
def rejectingConfig : EmuConfig Unit where
  ramStart := 0
  ramEnd := 0x1000
  cpuCount := 1
  mmio := [⟨0x1000, 8, fun bus _ _ => ((true, 0), bus), fun bus _ _ _ => (false, bus)⟩]
  trapHook := fun _ => none
  rvFloatExactMath := false
  fpu := default
  softfloat := default

end Riscmulator
