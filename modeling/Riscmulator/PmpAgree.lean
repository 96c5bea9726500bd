import Riscmulator.BusLockstep
import Riscmulator.Isolation
import Riscmulator.RamBytes

/-! Two machines that differ in bytes of RAM which a hart may not access: below M-mode and
without translation, it does the same in both. -/

namespace Riscmulator

variable {δ : Type}

/-! ### Agreement -/

/-- Machines that are the same up to bytes of RAM at addresses that are not visible. -/
structure Agree (mc : EmuConfig δ) (visible : U64 → Prop) (m m' : EmuMachine δ) : Prop where
  ram : ∀ a, visible a → m'.ram (a - mc.ramStart) = m.ram (a - mc.ramStart)
  rest : m' = { m with ram := m'.ram }

section Agree

variable {mc : EmuConfig δ} {visible : U64 → Prop} {m m' : EmuMachine δ}

theorem Agree.cpus (agree : Agree mc visible m m') : m'.cpus = m.cpus := by rw [agree.rest]

theorem Agree.reservations (agree : Agree mc visible m m') :
    m'.reservations = m.reservations := by rw [agree.rest]

theorem Agree.feround (agree : Agree mc visible m m') : m'.feround = m.feround := by
  rw [agree.rest]

theorem Agree.bus (agree : Agree mc visible m m') : m'.bus = m.bus := by
  rw [agree.rest]
  rfl

theorem Agree.setCpu (agree : Agree mc visible m m') (h : Nat) (cpu : RvCpu) :
    Agree mc visible (m.setCpu h cpu) (m'.setCpu h cpu) := by
  refine ⟨agree.ram, ?_⟩
  rw [agree.rest]
  rfl

theorem Agree.setBus (agree : Agree mc visible m m') (bus : DeviceBus δ) :
    Agree mc visible (m.setBus bus) (m'.setBus bus) := by
  refine ⟨agree.ram, ?_⟩
  rw [agree.rest]
  rfl

theorem Agree.setReservations (agree : Agree mc visible m m')
    (reservations : Nat → RvReservation) :
    Agree mc visible { m with reservations := reservations }
      { m' with reservations := reservations } := by
  refine ⟨agree.ram, ?_⟩
  rw [agree.rest]

theorem Agree.setFeround (agree : Agree mc visible m m') (h : Nat) (round : FeRound) :
    Agree mc visible (m.setFeround h round) (m'.setFeround h round) := by
  refine ⟨agree.ram, ?_⟩
  rw [agree.rest]
  rfl

theorem agree_harts : AlikeHarts (Agree mc visible) where
  cpus := Agree.cpus
  reservations := Agree.reservations
  feround := Agree.feround
  setCpu := Agree.setCpu
  setReservations := Agree.setReservations
  setFeround := Agree.setFeround
  abort := by
    intro m m' agree
    refine ⟨agree.ram, ?_⟩
    rw [agree.rest]

end Agree

/-! ### Physical accesses -/

section Phys

variable {mc : EmuConfig δ} {visible : U64 → Prop} {m m' : EmuMachine δ} {addr : U64}
  {mode : RvAccess}

theorem Agree.ramLoad (agree : Agree mc visible m m') {n : Nat}
    (seen : VisibleRange visible addr n) :
    ramLoad m'.ram (addr - mc.ramStart) n = ramLoad m.ram (addr - mc.ramStart) n := by
  induction n generalizing addr with
  | zero => rfl
  | succ n ih =>
      have first : m'.ram (addr - mc.ramStart) = m.ram (addr - mc.ramStart) := by
        have here := seen 0 (Nat.succ_pos n)
        rw [BitVec.add_zero] at here
        exact agree.ram addr here
      have next : addr - mc.ramStart + 1 = addr + 1 - mc.ramStart :=
        (index_add addr mc.ramStart 1).symm
      have rest : VisibleRange visible (addr + 1) n := by
        intro k inside
        have position : addr + 1 + BitVec.ofNat 64 k = addr + BitVec.ofNat 64 (k + 1) := by
          bv_omega
        rw [position]
        exact seen (k + 1) (Nat.succ_lt_succ inside)
      rw [Riscmulator.ramLoad, Riscmulator.ramLoad, first, next, ih rest]

theorem ramTransfer_agree (agree : Agree mc visible m m') (data : Option U64) {len : U64}
    (seen : VisibleRange visible addr len.toNat) :
    AlikeOut (Agree mc visible) (ramTransfer mc m addr data len mode)
      (ramTransfer mc m' addr data len mode) := by
  cases data with
  | none => exact ⟨rfl, rfl, agree⟩
  | some d =>
      simp only [ramTransfer]
      split
      · refine ⟨rfl, rfl, ?_, ?_⟩
        · intro a shown
          simp only [ramStore]
          split
          · rfl
          · exact agree.ram a shown
        · rw [agree.rest]
      · rw [agree.ramLoad seen]
        exact ⟨rfl, rfl, agree⟩

theorem mmioDispatch_agree (agree : Agree mc visible m m') (r : EmuMmioRegion δ)
    (data : Option U64) (size : U8) :
    AlikeOut (Agree mc visible) (mmioDispatch m r addr data size mode)
      (mmioDispatch m' r addr data size mode) := by
  cases data with
  | none => exact ⟨rfl, rfl, agree⟩
  | some d =>
      simp only [mmioDispatch, agree.bus]
      split
      · exact ⟨rfl, rfl, agree.setBus _⟩
      · exact ⟨rfl, rfl, agree.setBus _⟩

/-- Accesses of what is visible come to the same. -/
theorem agree_bus (mc : EmuConfig δ) (visible : U64 → Prop) :
    BusLockstep mc mc (Agree mc visible) visible where
  ramStart := rfl
  ramEnd := rfl
  regions := List.forall₂_same.mpr fun r _ =>
    ⟨rfl, rfl, fun agree _ data size _ => mmioDispatch_agree agree r data size⟩
  ram := fun agree _ data _ _ seen => ramTransfer_agree agree data seen

end Phys

/-! ### Accesses of a confined hart -/

/-- Whatever PMP grants to the core below M-mode is visible. -/
def Confined (cpu : RvCpu) (visible : U64 → Prop) : Prop :=
  ∀ a, ∀ b < 3, (rvPmpCheck cpu a 1 false).getLsbD b = true → visible a

/-- A core below M-mode, without translation. -/
structure LowBare (cpu : RvCpu) : Prop where
  low : cpu.privilege ≠ 3
  bare : ∀ mode, rvIsBare cpu mode = true

/-- Such a core that PMP confines. -/
structure LowConfined (visible : U64 → Prop) (cpu : RvCpu) : Prop extends LowBare cpu where
  confined : Confined cpu visible

theorem LowBare.control {cpu cpu' : RvCpu} (before : LowBare cpu) (same : SameControl cpu cpu') :
    LowBare cpu' := by
  rcases same.csr with ⟨fcsr, csr⟩
  constructor
  · rw [same.privilege]
    exact before.low
  · intro mode
    have bare := before.bare mode
    rw [rvIsBare, rvEffPriv] at bare ⊢
    rw [same.privilege, same.memPrivilege, csr]
    exact bare

theorem Confined.congr {cpu cpu' : RvCpu} {visible : U64 → Prop} (confined : Confined cpu visible)
    (cfg : cpu'.csr.pmpcfg = cpu.csr.pmpcfg) (addr : cpu'.csr.pmpaddr = cpu.csr.pmpaddr) :
    Confined cpu' visible := by
  intro a b small granted
  rw [rvPmpCheck_congr cfg addr] at granted
  exact confined a b small granted

theorem LowConfined.control {cpu cpu' : RvCpu} {visible : U64 → Prop}
    (before : LowConfined visible cpu) (same : SameControl cpu cpu') :
    LowConfined visible cpu' := by
  refine ⟨before.toLowBare.control same, ?_⟩
  rcases same.csr with ⟨fcsr, csr⟩
  exact before.confined.congr (by rw [csr]) (by rw [csr])

/-- PMP grants each byte of an access that it does not refuse. -/
theorem LowBare.granted {cpu : RvCpu} (low : LowBare cpu) {addr : U64} {sizeExp : Fin 4}
    {mode : RvAccess} (ok : doPmpCheck cpu addr (bit sizeExp.val) mode = .ok) {k : Nat}
    (inside : k < (bit sizeExp.val).toNat) :
    (rvPmpCheck cpu (addr + BitVec.ofNat 64 k) 1 false).getLsbD mode.pmpBit = true := by
  have machine : (cpu.privilege == 3) = false := beq_eq_false_iff_ne.mpr low.low
  have whole : (rvPmpCheck cpu addr (bit sizeExp.val) false).getLsbD mode.pmpBit = true := by
    by_contra refused
    rw [doPmpCheck, machine, if_neg refused] at ok
    cases ok
  have small := (accessSize_small sizeExp).2
  refine rvPmpCheck_part small (by decide) ?_ whole
  bv_omega

section Access

variable {mc : EmuConfig δ} {visible : U64 → Prop} {m m' : EmuMachine δ} {h : Nat} {addr : U64}
  {sizeExp : Fin 4} {mode : RvAccess}

/-- What an access is granted is visible. -/
theorem LowConfined.seen (low : LowConfined visible (m.cpus h))
    (granted : doPmpCheck (m.cpus h) addr (bit sizeExp.val) mode = .ok) :
    VisibleRange visible addr (bit sizeExp.val).toNat := by
  have permission : mode.pmpBit < 3 := by cases mode <;> decide
  exact fun k inside => low.confined _ _ permission (low.granted granted inside)

theorem rvAccessVirt_agree (agree : Agree mc visible m m') (low : LowConfined visible (m.cpus h))
    (data : U64) :
    AlikeOut (Agree mc visible) (rvAccessVirt mc m h addr data sizeExp mode)
      (rvAccessVirt mc m' h addr data sizeExp mode) := by
  simp only [rvAccessVirt, rvAccessVirtBy, agree.cpus, low.bare mode, if_true, rvAccessPhys,
    Bool.not_false, Bool.true_and]
  by_cases granted : doPmpCheck (m.cpus h) addr (bit sizeExp.val) mode = .ok
  · simp only [granted, ne_eq, not_true_eq_false, decide_false, Bool.false_eq_true, if_false]
    exact (agree_bus mc visible).unchecked agree data (low.seen granted)
  · simp only [granted, ne_eq, not_false_eq_true, decide_true, if_true]
    exact ⟨rfl, rfl, agree⟩

end Access

end Riscmulator
