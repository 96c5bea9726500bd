import Riscmulator.HostMemory

/-! The rule for properties of the control state of one hart that hold over runs
of the whole machine. -/

namespace Riscmulator

open Transition

variable {δ : Type}

/-- Trap hooks are code of the host. They leave this part of every core alone. -/
def EmuConfig.HooksKeep {α : Type} (mc : EmuConfig δ) (view : RvCpu → α) : Prop :=
  ∀ cause hook, mc.trapHook cause = some hook → ∀ m h trap i,
    view ((hook m h trap).2.cpus i) = view (m.cpus i)

theorem EmuConfig.NoHooks.keeps {mc : EmuConfig δ} (hooks : mc.NoHooks) {α : Type}
    (view : RvCpu → α) : mc.HooksKeep view := by
  intro cause hook found
  rw [hooks cause] at found
  cases found

/-- A property of one core that everything which changes its control state keeps. -/
structure CoreInvariant (mc : EmuConfig δ) (P : RvCpu → Prop) : Prop where
  data : ∀ {cpu cpu'}, SameControl cpu cpu' → P cpu → P cpu'
  enter : ∀ {cpu} trap, P cpu → P (rvTrapEnter cpu trap)
  write : ∀ {cpu cpu' index reg wdata}, CsrGrants cpu index reg →
    rvCsrWriteReg cpu reg wdata = some cpu' → P cpu → P cpu'
  mret : ∀ {cpu}, cpu.privilege = 3 → P cpu → P (rvMret cpu)
  sret : ∀ {cpu}, P cpu → P (rvSret cpu)
  hook : ∀ {cause hook}, mc.trapHook cause = some hook → ∀ m h trap i,
    P (m.cpus i) → P ((hook m h trap).2.cpus i)

section Rule

variable {mc : EmuConfig δ} {P : RvCpu → Prop} {m m' : EmuMachine δ} {h i : Nat}

theorem CoreInvariant.setCpu (before : P (m.cpus i)) {cpu : RvCpu}
    (core : P (m.cpus h) → P cpu) : P ((m.setCpu h cpu).cpus i) := by
  by_cases mine : i = h
  · subst mine
    rw [EmuMachine.setCpu_same]
    exact core before
  · rw [EmuMachine.setCpu_other _ _ mine]
    exact before

theorem CoreInvariant.trap (inv : CoreInvariant mc P) (trap : RvTrap) (before : P (m.cpus i)) :
    P ((rvDoTrap mc m h trap).cpus i) := by
  simp only [rvDoTrap]
  split
  · exact CoreInvariant.setCpu before (inv.enter trap)
  split
  · exact CoreInvariant.setCpu before (inv.enter trap)
  · next hook found =>
      have after := inv.hook found m h trap i before
      split
      · exact CoreInvariant.setCpu after (inv.enter trap)
      · exact after

theorem CoreInvariant.checkInterrupts (inv : CoreInvariant mc P) (before : P (m.cpus i)) :
    P ((rvCheckInterrupts mc m h).cpus i) := by
  unfold rvCheckInterrupts
  split
  · exact before
  · exact inv.trap _ before

theorem CoreInvariant.effect {insn : U32} (inv : CoreInvariant mc P) (before : P (m.cpus i))
    (effect : InsnEffect mc m h insn m') : P (m'.cpus i) := by
  cases effect with
  | data step => exact inv.data (step.core i) before
  | trap trap step => exact inv.trap trap (inv.data (step.core i) before)
  | csr form read written =>
      apply CoreInvariant.setCpu before
      intro core
      apply inv.data (sameControl_xreg _ _ _)
      rcases doCsrWrite_cases form read written with rfl | ⟨reg, wdata, writes, stored⟩
      · exact core
      · exact inv.write writes.2.2.1 stored core
  | mret machine => exact CoreInvariant.setCpu before (inv.mret machine)
  | sret legal => exact CoreInvariant.setCpu before inv.sret
  | abort level => exact before

theorem CoreInvariant.step (inv : CoreInvariant mc P) (before : P (m.cpus i)) :
    P ((rvStepInsn mc m h).cpus i) := by
  have fetched := inv.data ((rvFetchInsn_step mc m h).core i) before
  unfold rvStepInsn rvStepInsnBy
  cases outcome : rvFetchInsn mc m h with
  | fault m' trap =>
      rw [outcome] at fetched
      exact inv.trap trap fetched
  | illegal m' hw =>
      rw [outcome] at fetched
      exact inv.trap _ fetched
  | word m' insn =>
      rw [outcome] at fetched
      exact inv.checkInterrupts (inv.effect fetched rvForcefeedInsn_effect)

/-- What holds of a hart holds of it after every run. -/
theorem CoreInvariant.run (inv : CoreInvariant mc P) (before : P (m.cpus i))
    (events : List (MachineEvent δ)) : P ((run (machineStep mc) m events).cpus i) := by
  refine invariant_run_always (I := fun m : EmuMachine δ => P (m.cpus i)) ?_ events before
  intro m e before
  cases e with
  | step h => exact inv.step before
  | insn h insn => exact inv.effect before rvForcefeedInsn_effect
  | trap h trap => exact inv.trap trap before
  | interrupts h => exact inv.checkInterrupts before
  | devices bus => exact inv.data ((setBus_frame m bus).virt 0 |>.dataStep.core i) before
  | load ram => exact inv.data ((setRam_frame m ram).virt 0 |>.dataStep.core i) before

end Rule

end Riscmulator
