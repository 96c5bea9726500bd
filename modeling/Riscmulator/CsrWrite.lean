import Riscmulator.Csr
import Riscmulator.Lib.BitField

/-! What a CSR write changes, field by field of the core. -/

namespace Riscmulator

variable {cpu cpu' : RvCpu} {reg : RvCsr} {wdata : U64}

theorem rvCsrWriteReg_irqPending (written : rvCsrWriteReg cpu reg wdata = some cpu') :
    cpu'.irqPending =
      if reg = .mip then (cpu.irqPending &&& ~~~rvSipWmask) ||| (wdata &&& rvSipWmask)
      else if reg = .sip then
        (cpu.irqPending &&& ~~~(cpu.csr.mideleg &&& rvSipWmask)) |||
          (wdata &&& (cpu.csr.mideleg &&& rvSipWmask))
      else cpu.irqPending := by
  cases reg <;> simp only [rvCsrWriteReg] at written <;> (try split_ifs at written) <;>
    cases written <;> rfl

/-- Only a `mstatus` write recomputes the data privilege. -/
theorem rvCsrWriteReg_privilege (written : rvCsrWriteReg cpu reg wdata = some cpu') :
    cpu'.privilege = cpu.privilege ∧
      (reg ≠ .mstatus → cpu'.memPrivilege = cpu.memPrivilege) := by
  cases reg <;> simp only [rvCsrWriteReg] at written <;> (try split_ifs at written) <;>
    cases written <;> refine ⟨rfl, fun other => ?_⟩ <;> first | rfl | exact absurd rfl other

theorem rvCsrWriteReg_mstatus (written : rvCsrWriteReg cpu reg wdata = some cpu') :
    cpu'.csr.mstatus =
      if reg = .mstatus then rvMstatusWdata wdata
      else if reg = .sstatus then
        (cpu.csr.mstatus &&& ~~~rvSstatusMask) ||| (wdata &&& rvSstatusMask)
      else cpu.csr.mstatus := by
  cases reg <;> simp only [rvCsrWriteReg] at written <;> (try split_ifs at written) <;>
    cases written <;> rfl

theorem rvCsrWriteReg_interrupts (written : rvCsrWriteReg cpu reg wdata = some cpu') :
    cpu'.csr.mie = (if reg = .mie then wdata else cpu.csr.mie) ∧
    cpu'.csr.mideleg = (if reg = .mideleg then wdata else cpu.csr.mideleg) ∧
    cpu'.csr.sie = (if reg = .sie then wdata else cpu.csr.sie) := by
  cases reg <;> simp only [rvCsrWriteReg] at written <;> (try split_ifs at written) <;>
    cases written <;> exact ⟨rfl, rfl, rfl⟩

/-- A write to `satp` may drop entries of the TLB but stores none. -/
theorem rvCsrWriteReg_entries (written : rvCsrWriteReg cpu reg wdata = some cpu') :
    cpu'.tlb.entries = cpu.tlb.entries := by
  cases reg <;> simp only [rvCsrWriteReg] at written <;> (try split_ifs at written) <;>
    cases written <;> rfl

/-- The core may access `index`, which selects `reg`. -/
def CsrGrants (cpu : RvCpu) (index : Nat) (reg : RvCsr) : Prop :=
  rvCsrPriv index ≤ cpu.privilege.toNat ∧ rvCsrOfIndex index = some reg

/-- The privilege level that a register belongs to. -/
def RvCsr.level : RvCsr → Nat
  | .sstatus | .sie | .sip | .stvec | .scause | .stval | .sepc | .sscratch | .satp => 1
  | .fcsr | .fflags | .frm => 0
  | _ => 3

/-- The index of a register carries its level in bits 9:8. -/
theorem rvCsrOfIndex_level {index : Nat} (selected : rvCsrOfIndex index = some reg) :
    rvCsrPriv index = reg.level := by
  have defs : ∀ def_ ∈ rvCsrDefs, rvCsrPriv def_.1 = def_.2.level := by decide
  unfold rvCsrOfIndex at selected
  split at selected
  · next csr found =>
      cases selected
      obtain ⟨before, after, list, _⟩ := List.lookup_eq_some_iff.mp found
      exact defs (index, reg) (by rw [list]; simp)
  · split at selected
    · next inside =>
        split at selected
        · cases selected
        · cases selected
          simp only [rvCsrPriv, RvCsr.level, rvCsrPmpcfg0] at inside ⊢
          omega
    · split at selected
      · next inside =>
          cases selected
          simp only [rvCsrPriv, RvCsr.level, rvCsrPmpaddr0] at inside ⊢
          omega
      · cases selected

theorem CsrGrants.level {index : Nat} (grants : CsrGrants cpu index reg) :
    reg.level ≤ cpu.privilege.toNat := by
  rw [← rvCsrOfIndex_level grants.2]
  exact grants.1

/-- The core and the register an accepted write comes down to. -/
theorem rvCsrWrite_eq_some {index : Nat} :
    rvCsrWrite cpu index wdata = some cpu' ↔
      ∃ reg, CsrGrants cpu index reg ∧ rvCsrWriteReg cpu reg wdata = some cpu' := by
  unfold rvCsrWrite CsrGrants
  by_cases refused : rvCsrPriv index > cpu.privilege.toNat
  · rw [if_pos refused]
    constructor
    · intro impossible
      cases impossible
    · intro accepted
      rcases accepted with ⟨_, ⟨allowed, _⟩, _⟩
      omega
  · rw [if_neg refused, Option.bind_eq_some_iff]
    simp only [Nat.not_lt.mp refused, true_and]

/-- A refused write of a register that is granted is refused by that register. -/
theorem rvCsrWriteReg_eq_none {index : Nat} (refused : rvCsrWrite cpu index wdata = none)
    (grants : CsrGrants cpu index reg) : rvCsrWriteReg cpu reg wdata = none := by
  cases written : rvCsrWriteReg cpu reg wdata with
  | none => rfl
  | some cpu' =>
      rw [rvCsrWrite_eq_some.mpr ⟨reg, grants, written⟩] at refused
      cases refused

end Riscmulator
