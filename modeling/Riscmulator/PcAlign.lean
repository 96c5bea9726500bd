import Riscmulator.Outcomes
import Riscmulator.TrapReturn

/-! The alignment of the program counter, over runs of the whole machine. -/

namespace Riscmulator

open Transition

variable {δ : Type}

/-! ### Even program counters -/

def PcEven (m : EmuMachine δ) : Prop := ∀ i, (m.cpus i).pc.getLsbD 0 = false

/-- Trap hooks are code of the host. They leave no program counter odd. -/
def EmuConfig.HooksKeepEven (mc : EmuConfig δ) : Prop :=
  ∀ cause hook, mc.trapHook cause = some hook → ∀ m h trap, PcEven m → PcEven (hook m h trap).2

theorem PcEven.setCpu {m : EmuMachine δ} (even : PcEven m) (h : Nat) {cpu : RvCpu}
    (core : cpu.pc.getLsbD 0 = false) : PcEven (m.setCpu h cpu) := by
  intro i
  by_cases mine : i = h
  · subst mine
    rw [EmuMachine.setCpu_same]
    exact core
  · rw [EmuMachine.setCpu_other _ _ mine]
    exact even i

theorem PcEven.kept {m m' : EmuMachine δ} (even : PcEven m) (kept : CoresKept m m') : PcEven m' := by
  intro i
  rw [(kept i).pc]
  exact even i

theorem RegsOnly.pc {cpu cpu' : RvCpu} (regs : RegsOnly cpu cpu') : cpu'.pc = cpu.pc := by
  rcases regs with ⟨_, _, _, rfl⟩
  rfl

theorem PcEven.regs {m : EmuMachine δ} (even : PcEven m) {h : Nat} {cpu : RvCpu}
    (regs : RegsOnly (m.cpus h) cpu) : PcEven (m.setCpu h cpu) := by
  apply even.setCpu
  rw [regs.pc]
  exact even h

/-! ### Traps -/

theorem rvTrapPc_even (tvec : U64) (trap : RvTrap) : (rvTrapPc tvec trap).getLsbD 0 = false := by
  have base : (tvec &&& ~~~3).getLsbD 0 = false := by
    rw [BitField.getLsbD_and_not]
    simp
  have offset : (BitVec.ofNat 64 (4 * trap.causeLow)).getLsbD 0 = false := by
    rw [BitVec.getLsbD_ofNat, Nat.testBit_zero]
    simp
    omega
  simp only [rvTrapPc]
  split
  · rw [BitField.getLsbD_zero_add, base, offset]
    rfl
  · exact base

theorem rvTrapEnter_pc (cpu : RvCpu) (trap : RvTrap) :
    (rvTrapEnter cpu trap).pc.getLsbD 0 = false := by
  unfold rvTrapEnter
  split
  · exact rvTrapPc_even _ trap
  · exact rvTrapPc_even _ trap

section Steps

variable {mc : EmuConfig δ} {m m' : EmuMachine δ} {h : Nat} {insn : U32}

theorem rvDoTrap_even (hooks : mc.HooksKeepEven) (even : PcEven m) (h : Nat) (trap : RvTrap) :
    PcEven (rvDoTrap mc m h trap) := by
  simp only [rvDoTrap]
  split
  · exact even.setCpu h (rvTrapEnter_pc _ _)
  split
  · exact even.setCpu h (rvTrapEnter_pc _ _)
  · next hook found =>
      have after := hooks _ hook found m h trap even
      split
      · exact after.setCpu h (rvTrapEnter_pc _ _)
      · exact after

theorem rvCheckInterrupts_even (hooks : mc.HooksKeepEven) (even : PcEven m) (h : Nat) :
    PcEven (rvCheckInterrupts mc m h) := by
  unfold rvCheckInterrupts
  split
  · exact even
  · exact rvDoTrap_even hooks even h _

/-- An interrupt leaves an even program counter, whatever it was before. -/
theorem rvCheckInterrupts_taken (others : ∀ i, i ≠ h → (m.cpus i).pc.getLsbD 0 = false)
    (taken : rvInterruptCause (m.cpus h) ≠ none) : PcEven (rvCheckInterrupts mc m h) := by
  unfold rvCheckInterrupts
  cases found : rvInterruptCause (m.cpus h) with
  | none => exact absurd found taken
  | some cause =>
      have known : cause ∈ irqPriority := List.mem_of_find?_eq_some found
      dsimp only
      rw [rvDoTrap_interrupt mc m h (rvInterruptTrap_cause _ known).1]
      intro i
      by_cases mine : i = h
      · subst mine
        rw [EmuMachine.setCpu_same]
        exact rvTrapEnter_pc _ _
      · rw [EmuMachine.setCpu_other _ _ mine]
        exact others i mine

/-! ### Words -/

/-- A return to an odd address, with no interrupt pending there. -/
def ReturnsOdd (cpu : RvCpu) (insn : U32) : Prop :=
  (insn = 0x30200073 ∧ cpu.privilege = 3 ∧ cpu.csr.mepc.getLsbD 0 = true ∧
      rvInterruptCause (rvMret cpu) = none) ∨
    (insn = 0x10200073 ∧ rvSupervisorIllegal cpu rvStatusTsrBit = false ∧
      cpu.csr.sepc.getLsbD 0 = true ∧ rvInterruptCause (rvSret cpu) = none)

theorem rvCsrWriteReg_pc {cpu cpu' : RvCpu} {reg : RvCsr} {wdata : U64}
    (written : rvCsrWriteReg cpu reg wdata = some cpu') : cpu'.pc = cpu.pc := by
  cases reg <;> simp only [rvCsrWriteReg] at written <;> (try split_ifs at written) <;>
    cases written <;> rfl

theorem FpComputes.even {f64 : Bool} (computes : FpComputes mc m h insn f64 m') (even : PcEven m) :
    PcEven m' := by
  cases computes with
  | compare op computed => exact even.regs (rvFloatCompare_regs computed)
  | sgnj op computed => exact even.regs (rvFloatSgnj_regs computed)
  | minMax op legal => exact even.regs (rvFloatMinMax_regs _ _ _)
  | @rounded env out chosen computed =>
      have rounding : PcEven (m.setFeround h env.round) := even
      exact rounding.regs ((rvFloatRounded_regs computed).trans (regsOnly_accrue _ _))

/-- What executing a word comes to has even program counters, unless it returns to
an odd address. -/
theorem Executes.even {out : ExecOutcome δ} (executes : Executes mc m h insn out)
    (hooks : mc.HooksKeepEven) (even : PcEven m) (epc : (m.cpus h).epc.getLsbD 0 = false)
    (returns : ¬ReturnsOdd (m.cpus h) insn) :
    PcEven (rvCheckInterrupts mc (out.finish mc h) h) := by
  have next : ∀ {m'}, PcEven m' → PcEven (rvCheckInterrupts mc m' h) :=
    fun even => rvCheckInterrupts_even hooks even h
  cases executes with
  | kept kept => exact next (even.kept kept)
  | xreg kept value => exact next ((even.kept kept).regs (regsOnly_xreg _ _ _))
  | jump value target even' =>
      exact next ((even.regs (regsOnly_xreg _ _ _)).setCpu h (even' epc))
  | branch target even' => exact next (even.setCpu h (even' epc))
  | fpLoad kept form legal value => exact next ((even.kept kept).regs (regsOnly_freg _ _ _))
  | opFp form format computes => exact next (computes.even even)
  | @fused f64 env form format chosen =>
      have rounding : PcEven (m.setFeround h env.round) := even
      exact next (rounding.regs ((rvFloatFused_regs _ env _).trans (regsOnly_accrue _ _)))
  | csr form read written =>
      apply next
      apply even.setCpu
      rw [(regsOnly_xreg _ _ _).pc]
      rcases doCsrWrite_cases form read written with rfl | ⟨reg, wdata, _, stored⟩
      · exact even h
      · rw [rvCsrWriteReg_pc stored]
        exact even h
  | mret word machine =>
      by_cases quiet : rvInterruptCause (rvMret (m.cpus h)) = none
      · apply next
        apply even.setCpu
        by_contra odd
        exact returns (Or.inl ⟨word, machine, Bool.not_eq_false _ ▸ odd, quiet⟩)
      · apply rvCheckInterrupts_taken
        · intro i other
          rw [ExecOutcome.finish, EmuMachine.setCpu_other _ _ other]
          exact even i
        · rw [ExecOutcome.finish, EmuMachine.setCpu_same]
          exact quiet
  | sret word legal =>
      by_cases quiet : rvInterruptCause (rvSret (m.cpus h)) = none
      · apply next
        apply even.setCpu
        by_contra odd
        exact returns (Or.inr ⟨word, legal, Bool.not_eq_false _ ▸ odd, quiet⟩)
      · apply rvCheckInterrupts_taken
        · intro i other
          rw [ExecOutcome.finish, EmuMachine.setCpu_other _ _ other]
          exact even i
        · rw [ExecOutcome.finish, EmuMachine.setCpu_same]
          exact quiet
  | abort level => exact next even
  | trap kept returned exception => exact next (rvDoTrap_even hooks (even.kept kept) h _)
  | minMax form format op illegal =>
      exact next (rvDoTrap_even hooks (even.regs (rvFloatMinMax_regs _ _ _)) h _)

theorem ReturnsOdd.not_even (returns : ReturnsOdd (m.cpus h) insn) :
    ¬PcEven (rvCheckInterrupts mc (rvForcefeedInsn mc m h insn) h) := by
  intro even
  have own := even h
  rcases returns with ⟨rfl, machine, odd, quiet⟩ | ⟨rfl, legal, odd, quiet⟩
  · rw [rvForcefeedInsn_mret mc machine, rvCheckInterrupts, EmuMachine.setCpu_same, quiet] at own
    simp only [EmuMachine.setCpu_same] at own
    exact absurd (own.symm.trans odd) Bool.false_ne_true
  · rw [rvForcefeedInsn_sret mc legal, rvCheckInterrupts, EmuMachine.setCpu_same, quiet] at own
    simp only [EmuMachine.setCpu_same] at own
    exact absurd (own.symm.trans odd) Bool.false_ne_true

end Steps

/-! ### Runs -/

/-- Steps of the harts, and what happens to memory and devices between them. -/
def MachineEvent.IsStep : MachineEvent δ → Prop
  | .step _ | .devices _ | .load _ => True
  | _ => False

/-- The condition on an event: a word that is fetched does not return to an odd address. -/
def ReturnsEven (mc : EmuConfig δ) (m : EmuMachine δ) : MachineEvent δ → Prop
  | .step h => ∀ m' insn, rvFetchInsn mc m h = .word m' insn → ¬ReturnsOdd (m'.cpus h) insn
  | _ => True

/-- A step leaves the program counters even exactly under the condition. -/
theorem rvStepInsn_even_iff {mc : EmuConfig δ} (hooks : mc.HooksKeepEven) {m : EmuMachine δ}
    (even : PcEven m) (h : Nat) : PcEven (rvStepInsn mc m h) ↔ ReturnsEven mc m (.step h) := by
  have fetched := rvFetchInsn_fetched mc m h
  simp only [rvStepInsn, rvStepInsnBy, ReturnsEven]
  generalize rvFetchInsn mc m h = outcome at fetched
  cases fetched with
  | fault kept epc exception =>
      apply iff_of_true
      · exact rvDoTrap_even hooks (even.kept kept) h _
      · intro _ _ word
        cases word
  | @illegal m' kept hw =>
      have fetched : PcEven (m'.setCpu h { m'.cpus h with epc := (m.cpus h).pc }) := by
        apply (even.kept kept).setCpu
        exact even.kept kept h
      apply iff_of_true
      · exact rvDoTrap_even hooks fetched h _
      · intro _ _ word
        cases word
  | word kept insn len lenEven =>
      constructor
      · intro after _ _ word
        cases word
        exact fun returns => returns.not_even after
      · intro returns
        rcases rvForcefeedInsn_executes mc _ h insn with ⟨out, executes, finished⟩
        dsimp only
        rw [finished]
        refine executes.even hooks ((even.kept kept).setCpu h ?_) ?_ (returns _ _ rfl)
        · rw [BitField.getLsbD_zero_add, even h, lenEven]
          rfl
        · rw [EmuMachine.setCpu_same]
          exact even h

/-- From even program counters, all states of a run whose TLB stores stay in their
arrays have them exactly if no step returns to an odd address. -/
theorem pcEven_run_iff (mc : EmuConfig δ) (hooks : mc.HooksKeepEven) (m : EmuMachine δ)
    (start : PcEven m) (events : List (MachineEvent δ)) (steps : ∀ e ∈ events, e.IsStep)
    (inside : StepsMeet (hostStep mc) (StoresInArray mc) m events) :
    Throughout (hostStep mc) PcEven m events ↔
      StepsMeet (hostStep mc) (ReturnsEven mc) m events := by
  rw [hostThroughout_iff inside, hostStepsMeet_iff inside]
  refine throughout_iff_stepsMeet (I := fun _ => True) (fun _ _ _ _ => trivial) ?_ trivial start
    events steps
  intro m e isStep _ even
  cases e with
  | step h => exact rvStepInsn_even_iff hooks even h
  | insn h insn => exact absurd isStep id
  | trap h trap => exact absurd isStep id
  | interrupts h => exact absurd isStep id
  | devices bus => exact iff_of_true even trivial
  | load ram => exact iff_of_true even trivial

/-! ### Two programs -/

/-- RAM with a program at its start. -/
def programRam (words : List U32) : U64 → U8 := fun i =>
  (words.getD (i.toNat / 4) 0 >>> (8 * (i.toNat % 4))).setWidth 8

theorem emuMachineInit_even : PcEven (emuMachineInit ()) := by
  intro i
  simp only [emuMachineInit, rvSyncMemPrivilege]
  decide

/-- A program of one `nop`. -/
theorem pcEven_run_iff_nop :
    Throughout (hostStep (EmuConfig.ramOnly 0 0x1000 1)) PcEven (emuMachineInit ())
      [.load (programRam [0x00000013]), .step 0] :=
  (pcEven_run_iff (EmuConfig.ramOnly 0 0x1000 1) (fun _ _ none => by cases none)
    (emuMachineInit ()) emuMachineInit_even [.load (programRam [0x00000013]), .step 0] (by
      intro e member
      simp only [List.mem_cons, List.not_mem_nil, or_false] at member
      rcases member with rfl | rfl <;> trivial)
    (storesInArray_run (fun _ => rfl) (emuMachineInit_inArray ())
      ⟨by decide, by decide, trivial⟩)).mpr (by
    refine ⟨trivial, ?_, trivial⟩
    have fetch := rvFetchInsn_long (EmuConfig.ramOnly 0 0x1000 1)
      { emuMachineInit () with ram := programRam [0x00000013] } 0 0x00000013 rfl (by decide +kernel)
      (by decide +kernel) rfl (by decide +kernel) (by decide +kernel)
    intro m' insn fetched returns
    cases fetch.symm.trans fetched
    rcases returns with ⟨word, _⟩ | ⟨word, _⟩
    · exact absurd word (by decide)
    · exact absurd word (by decide))

/-- Writing 1 to `mepc` and returning with `mret`. -/
theorem pcEven_run_mret :
    ¬∀ (mc : EmuConfig Unit) (m : EmuMachine Unit) (events : List (MachineEvent Unit)), mc.NoHooks →
      PcEven m → (∀ e ∈ events, e.IsStep) → Throughout (hostStep mc) PcEven m events := by
  intro always
  have even := always (EmuConfig.ramOnly 0 0x1000 1) (emuMachineInit ())
    [.load (programRam [0x3410d073, 0x30200073]), .step 0, .step 0] (fun _ => rfl)
    emuMachineInit_even (by
      intro e member
      simp only [List.mem_cons, List.not_mem_nil, or_false] at member
      rcases member with rfl | rfl | rfl <;> trivial) _ (List.prefix_refl _) 0
  exact absurd even (by decide +kernel)

end Riscmulator
