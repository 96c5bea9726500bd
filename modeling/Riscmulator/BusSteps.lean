import Riscmulator.CoreInvariants

/-! What an instruction step does to the devices and the interrupt lines: callbacks of the
regions, and at most one register write at the end. -/

namespace Riscmulator

variable {δ : Type}

/-- The bus after a step of hart `h`. -/
inductive StepBus (mc : EmuConfig δ) (m : EmuMachine δ) (h : Nat) : DeviceBus δ → Prop
  | callbacks {last : DeviceBus δ} (reach : BusReach mc m.bus last) : StepBus mc m h last
  | csr {fetched : EmuMachine δ} {insn : U32} {rdata : U64} {cpu : RvCpu}
      (word : rvFetchInsn mc m h = .word fetched insn) (reach : BusReach mc m.bus fetched.bus)
      (form : IsCsrInsn insn) (read : doCsrRead (fetched.cpus h) insn = some rdata)
      (written : doCsrWrite (fetched.cpus h) insn rdata = some cpu) :
      StepBus mc m h (fetched.setCpu h cpu).bus

section Steps

variable {mc : EmuConfig δ}

theorem rvTrapEnter_lines (cpu : RvCpu) (trap : RvTrap) : SameLines cpu (rvTrapEnter cpu trap) := by
  unfold rvTrapEnter
  split <;> exact ⟨rfl, rfl⟩

theorem rvDoTrap_bus (hooks : mc.NoHooks) (m : EmuMachine δ) (h : Nat) (trap : RvTrap) :
    (rvDoTrap mc m h trap).bus = m.bus := by
  rw [rvDoTrap_noHooks hooks]
  exact EmuMachine.bus_setCpu (rvTrapEnter_lines _ _)

theorem rvCheckInterrupts_bus (hooks : mc.NoHooks) (m : EmuMachine δ) (h : Nat) :
    (rvCheckInterrupts mc m h).bus = m.bus := by
  unfold rvCheckInterrupts
  split
  · rfl
  · exact rvDoTrap_bus hooks _ _ _

theorem bus_xregWrite (m : EmuMachine δ) (h : Nat) (cpu : RvCpu) (index : BitVec 5) (value : U64) :
    (m.setCpu h (rvXregWrite cpu index value)).bus = (m.setCpu h cpu).bus := by
  have twice : m.setCpu h (rvXregWrite cpu index value) =
      (m.setCpu h cpu).setCpu h (rvXregWrite cpu index value) := by
    simp only [EmuMachine.setCpu, Function.update_idem]
  have lines : SameLines cpu (rvXregWrite cpu index value) :=
    (regsOnly_xreg cpu index value).coreWork.lines
  rw [twice]
  refine EmuMachine.bus_setCpu ?_
  rwa [EmuMachine.setCpu_same]

theorem rvStepInsn_stepBus (hooks : mc.NoHooks) (m : EmuMachine δ) (h : Nat) :
    StepBus mc m h (rvStepInsn mc m h).bus := by
  have reach : BusReach mc m.bus (rvFetchInsn mc m h).machine.bus := (rvFetchInsn_work mc m h).bus
  unfold rvStepInsn rvStepInsnBy
  cases outcome : rvFetchInsn mc m h with
  | fault m' trap =>
      rw [outcome] at reach
      simp only [rvDoTrap_bus hooks]
      exact .callbacks reach
  | illegal m' hw =>
      rw [outcome] at reach
      simp only [rvDoIillegal, rvDoTrap_bus hooks]
      exact .callbacks reach
  | word m' insn =>
      rw [outcome] at reach
      change BusReach mc m.bus m'.bus at reach
      have executed : InsnWork mc m' h insn (rvForcefeedInsn mc m' h insn) := rvForcefeedInsn_work
      simp only [rvCheckInterrupts_bus hooks]
      revert executed
      generalize rvForcefeedInsn mc m' h insn = last
      intro executed
      cases executed with
      | data work => exact .callbacks (reach.trans work.bus)
      | trap trap work =>
          rw [rvDoTrap_bus hooks]
          exact .callbacks (reach.trans work.bus)
      | csr form read written =>
          rw [bus_xregWrite]
          exact .csr outcome reach form read written
      | mret machine =>
          have lines : SameLines (m'.cpus h) (rvMret (m'.cpus h)) := ⟨rfl, rfl⟩
          exact .callbacks (EmuMachine.bus_setCpu lines ▸ reach)
      | sret legal =>
          have lines : SameLines (m'.cpus h) (rvSret (m'.cpus h)) := ⟨rfl, rfl⟩
          exact .callbacks (EmuMachine.bus_setCpu lines ▸ reach)
      | abort level => exact .callbacks reach

end Steps

end Riscmulator
