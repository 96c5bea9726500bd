import Riscmulator.Effects
import Riscmulator.Lib.Transition

/-! Runs of the whole machine: what its harts, its devices and its loader do,
in any order. -/

namespace Riscmulator

variable {δ : Type}

/-- One thing that happens to a machine. `insn` executes a word as
`rv_forcefeed_insn` does, `devices` and `load` are changes from outside. -/
inductive MachineEvent (δ : Type)
  | step (h : Nat)
  | insn (h : Nat) (insn : U32)
  | trap (h : Nat) (trap : RvTrap)
  | interrupts (h : Nat)
  | devices (bus : DeviceBus δ)
  | load (ram : U64 → U8)

def machineStepBy (access : VirtAccess δ) (mc : EmuConfig δ) (m : EmuMachine δ) :
    MachineEvent δ → EmuMachine δ
  | .step h => rvStepInsnBy access mc m h
  | .insn h insn => rvForcefeedInsn mc m h insn access
  | .trap h trap => rvDoTrap mc m h trap
  | .interrupts h => rvCheckInterrupts mc m h
  | .devices bus => m.setBus bus
  | .load ram => { m with ram := ram }

def machineStep (mc : EmuConfig δ) : EmuMachine δ → MachineEvent δ → EmuMachine δ :=
  machineStepBy (rvAccessVirt mc) mc

/-- The same in the host's memory, where a TLB store can leave its array. -/
def hostStep (mc : EmuConfig δ) : EmuMachine δ → MachineEvent δ → EmuMachine δ :=
  machineStepBy (hostAccessVirt mc) mc

/-- Executing `insn` on this core writes `wdata` to the register `reg`. -/
def InsnWrites (cpu : RvCpu) (insn : U32) (reg : RvCsr) (wdata : U64) : Prop :=
  IsCsrInsn insn ∧ (doCsrSource cpu insn).2 = true ∧
    CsrGrants cpu (rvInsnUimm12 insn).toNat reg ∧
    ∃ rdata, doCsrRead cpu insn = some rdata ∧
      wdata = doCsrWdata insn rdata (doCsrSource cpu insn).1

/-- A CSR instruction leaves the core as it was or makes one register write. -/
theorem doCsrWrite_cases {cpu cpu' : RvCpu} {insn : U32} {rdata : U64} (form : IsCsrInsn insn)
    (read : doCsrRead cpu insn = some rdata) (written : doCsrWrite cpu insn rdata = some cpu') :
    cpu' = cpu ∨ ∃ reg wdata, InsnWrites cpu insn reg wdata ∧
      rvCsrWriteReg cpu reg wdata = some cpu' := by
  unfold doCsrWrite at written
  simp only at written
  split at written
  · next source =>
      obtain ⟨reg, grants, stored⟩ := rvCsrWrite_eq_some.mp written
      exact Or.inr ⟨reg, _, ⟨form, source, grants, rdata, read, rfl⟩, stored⟩
  · rw [Option.some.injEq] at written
    exact Or.inl written.symm

/-! ### Fetching -/

def FetchOutcome.machine : FetchOutcome δ → EmuMachine δ
  | .fault m _ => m
  | .illegal m _ => m
  | .word m _ => m

theorem rvFetched_steps {mc : EmuConfig δ} {h : Nat} {m m' : EmuMachine δ}
    (steps : MicroSteps mc h m m') (insn : U32) (len : U64) :
    MicroSteps mc h m (rvFetched m' h insn len).machine :=
  steps.pc _ _

theorem rvFetchInsn_steps (mc : EmuConfig δ) (m : EmuMachine δ) (h : Nat) :
    MicroSteps mc h m (rvFetchInsn mc m h).machine := by
  have low := rvAccessVirt_steps mc m h (m.cpus h).pc 0 1 .insn
  simp only [rvFetchInsn, rvAccessVirt_pc]
  split
  · exact low
  split
  · split
    · exact low.pc _ _
    · exact rvFetched_steps low _ 2
  · have high := low.access ((m.cpus h).pc + 2) 0 1 .insn
    split
    · exact high
    · exact rvFetched_steps high _ 4

theorem rvFetchInsn_work (mc : EmuConfig δ) (m : EmuMachine δ) (h : Nat) :
    Work mc h m (rvFetchInsn mc m h).machine :=
  (rvFetchInsn_steps mc m h).work

theorem rvFetchInsn_step (mc : EmuConfig δ) (m : EmuMachine δ) (h : Nat) :
    DataStep m (rvFetchInsn mc m h).machine :=
  (rvFetchInsn_work mc m h).dataStep

end Riscmulator
