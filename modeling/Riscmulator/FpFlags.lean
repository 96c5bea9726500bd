import Riscmulator.CoreInvariants
import Riscmulator.FpDirty
import Riscmulator.PcAlign

/-! The exception flags and the rounding mode in `fcsr`, over runs of the whole machine. -/

namespace Riscmulator

open Transition

variable {δ : Type}

/-! ### Accrual -/

/-- Exception flags may have been raised, and nothing else of `fcsr` has changed. -/
def FlagsAccrue (cpu cpu' : RvCpu) : Prop :=
  ∃ flags, cpu'.csr.fcsr = cpu.csr.fcsr ||| (flags &&& rvFflagsMask)

theorem FlagsAccrue.of_eq {cpu cpu' : RvCpu} (same : cpu'.csr.fcsr = cpu.csr.fcsr) :
    FlagsAccrue cpu cpu' := by
  refine ⟨0#64, ?_⟩
  rw [same, BitVec.zero_and, BitVec.or_zero]

theorem FlagsAccrue.refl (cpu : RvCpu) : FlagsAccrue cpu cpu := .of_eq rfl

theorem FlagsAccrue.trans {first second third : RvCpu} (left : FlagsAccrue first second)
    (right : FlagsAccrue second third) : FlagsAccrue first third := by
  rcases left with ⟨before, left⟩
  rcases right with ⟨after, right⟩
  refine ⟨before ||| after, ?_⟩
  rw [right, left, BitVec.and_or_distrib_right, BitVec.or_assoc]

theorem flagsAccrue_accrue (cpu : RvCpu) (flags : U64) : FlagsAccrue cpu (rvAccrue cpu flags) :=
  ⟨flags, rfl⟩

theorem FpSame.flagsAccrue {cpu cpu' : RvCpu} (same : FpSame cpu cpu') : FlagsAccrue cpu cpu' :=
  .of_eq same.fcsr

theorem FlagsAccrue.setCpu {m : EmuMachine δ} {h i : Nat} {cpu : RvCpu}
    (core : FlagsAccrue (m.cpus h) cpu) : FlagsAccrue (m.cpus i) ((m.setCpu h cpu).cpus i) := by
  by_cases mine : i = h
  · subst mine
    rw [EmuMachine.setCpu_same]
    exact core
  · rw [EmuMachine.setCpu_other _ _ mine]
    exact .refl _

theorem flagsAccrue_setCpu {m : EmuMachine δ} {h i : Nat} {cpu : RvCpu}
    (same : cpu.csr.fcsr = (m.cpus h).csr.fcsr) :
    FlagsAccrue (m.cpus i) ((m.setCpu h cpu).cpus i) := (FlagsAccrue.of_eq same).setCpu

/-- The rounding mode stays, and so does each flag that is raised. -/
theorem FlagsAccrue.getLsbD {cpu cpu' : RvCpu} (accrues : FlagsAccrue cpu cpu') (i : Nat) :
    (cpu.csr.fcsr.getLsbD i = true → cpu'.csr.fcsr.getLsbD i = true) ∧
      (5 ≤ i → cpu'.csr.fcsr.getLsbD i = cpu.csr.fcsr.getLsbD i) := by
  rcases accrues with ⟨flags, after⟩
  rw [after, BitVec.getLsbD_or, BitVec.getLsbD_and]
  constructor
  · intro raised
    rw [raised, Bool.true_or]
  · intro above
    have outside : rvFflagsMask.getLsbD i = false := by
      by_cases inside : i < 64
      · have all : ∀ i < 64, 5 ≤ i → rvFflagsMask.getLsbD i = false := by decide
        exact all i inside above
      · exact BitVec.getLsbD_of_ge _ _ (Nat.not_lt.mp inside)
    rw [outside, Bool.and_false, Bool.or_false]

/-- No bit of `fcsr` outside its fields is set. -/
def FcsrBounded (cpu : RvCpu) : Prop := cpu.csr.fcsr &&& rvFcsrMask = cpu.csr.fcsr

theorem FlagsAccrue.bounded {cpu cpu' : RvCpu} (accrues : FlagsAccrue cpu cpu')
    (bounded : FcsrBounded cpu) : FcsrBounded cpu' := by
  rcases accrues with ⟨flags, after⟩
  have fields : rvFflagsMask &&& rvFcsrMask = rvFflagsMask := by decide
  rw [FcsrBounded] at bounded ⊢
  rw [after, BitVec.and_or_distrib_right, bounded, BitVec.and_assoc, fields]

/-- `fcsr` stays within its fields, and where nothing writes it as a register only
accrues. -/
structure FcsrMoves (quiet : Prop) (cpu cpu' : RvCpu) : Prop where
  accrues : quiet → FlagsAccrue cpu cpu'
  bounded : FcsrBounded cpu → FcsrBounded cpu'

theorem FlagsAccrue.moves {cpu cpu' : RvCpu} (accrues : FlagsAccrue cpu cpu') (quiet : Prop) :
    FcsrMoves quiet cpu cpu' := ⟨fun _ => accrues, accrues.bounded⟩

theorem FcsrMoves.trans {quiet : Prop} {first second third : RvCpu}
    (left : FcsrMoves quiet first second) (right : FcsrMoves quiet second third) :
    FcsrMoves quiet first third :=
  ⟨fun here => (left.accrues here).trans (right.accrues here),
    fun before => right.bounded (left.bounded before)⟩

/-! ### Instructions -/

section Words

variable {mc : EmuConfig δ} {m m' : EmuMachine δ} {h : Nat} {insn : U32} {cpu cpu' : RvCpu}

theorem rvFloatBinop_accrues (op : FpBinop) (env : FpEnv) (f64 : Bool) :
    FlagsAccrue cpu (rvFloatBinop mc op cpu insn env f64).1 := by
  simp only [rvFloatBinop]
  split <;> exact .of_eq rfl

theorem rvFloatRounded_accrues {env : FpEnv} {f64 : Bool} {out : RvCpu × FpFlags}
    (computed : rvFloatRounded mc cpu insn env f64 = some out) : FlagsAccrue cpu out.1 := by
  unfold rvFloatRounded at computed
  split at computed <;>
    (first | (rw [Option.some.injEq] at computed; rw [← computed]) | cases computed)
  · exact rvFloatBinop_accrues _ _ _
  · exact rvFloatBinop_accrues _ _ _
  · exact rvFloatBinop_accrues _ _ _
  · exact rvFloatBinop_accrues _ _ _
  · simp only [rvFloatSqrt]
    split <;> exact .of_eq rfl
  · simp only [rvFloatFtof]
    split_ifs <;> exact .of_eq rfl
  · simp only [rvFloatXtof]
    split <;> exact .of_eq rfl
  · exact (fpSame_xreg _ _ _).flagsAccrue
  · exact (fpSame_xreg _ _ _).flagsAccrue
  · exact .of_eq rfl

theorem rvFloatCompare_accrues {f64 : Bool}
    (compared : rvFloatCompare mc cpu insn f64 = some cpu') : FlagsAccrue cpu cpu' := by
  simp only [rvFloatCompare] at compared
  split at compared <;>
    (first | (rw [Option.some.injEq] at compared; rw [← compared]) | cases compared) <;>
    exact (fpSame_xreg _ _ _).flagsAccrue.trans (flagsAccrue_accrue _ _)

theorem rvFloatSgnj_accrues {f64 : Bool} (moved : rvFloatSgnj cpu insn f64 = some cpu') :
    FlagsAccrue cpu cpu' := by
  simp only [rvFloatSgnj] at moved
  split at moved <;>
    (first | (rw [Option.some.injEq] at moved; rw [← moved]) | cases moved) <;>
    exact .of_eq rfl

theorem rvFloatMinMax_accrues (cpu : RvCpu) (round : FeRound) (f64 : Bool) :
    FlagsAccrue cpu (rvFloatMinMax mc cpu round insn f64).1 := by
  have raised : ∀ signaling : Bool,
      FlagsAccrue cpu (if signaling = true then rvAccrue cpu (bit rvFflagsNvBit) else cpu) := by
    intro signaling
    split
    · exact flagsAccrue_accrue _ _
    · exact .refl _
  simp only [rvFloatMinMax]
  split
  · exact raised _
  · split
    · exact raised _
    · exact (raised _).trans (.of_eq rfl)

theorem rvFloatFused_accrues (cpu : RvCpu) (env : FpEnv) (f64 : Bool) :
    FlagsAccrue cpu (rvFloatFused mc cpu insn env f64).1 := by
  have raised : ∀ invalid : Bool,
      FlagsAccrue cpu (if invalid = true then rvAccrue cpu (bit rvFflagsNvBit) else cpu) := by
    intro invalid
    split
    · exact flagsAccrue_accrue _ _
    · exact .refl _
  simp only [rvFloatFused]
  split <;> exact (raised _).trans (.of_eq rfl)

theorem FpComputes.flagsAccrue {f64 : Bool} (computes : FpComputes mc m h insn f64 m') (i : Nat) :
    FlagsAccrue (m.cpus i) (m'.cpus i) := by
  cases computes with
  | compare op computed => exact (rvFloatCompare_accrues computed).setCpu
  | sgnj op computed => exact (rvFloatSgnj_accrues computed).setCpu
  | minMax op legal => exact (rvFloatMinMax_accrues _ _ _).setCpu
  | rounded chosen computed =>
      exact ((rvFloatRounded_accrues computed).trans (flagsAccrue_accrue _ _)).setCpu

/-- The word writes `fcsr` or a field of it as a control register. -/
def WritesFcsr (cpu : RvCpu) (insn : U32) : Prop :=
  ∃ reg ∈ [RvCsr.fcsr, .fflags, .frm], ∃ wdata, InsnWrites cpu insn reg wdata

theorem rvCsrWriteReg_fcsrBounded {reg : RvCsr} {wdata : U64}
    (stored : rvCsrWriteReg cpu reg wdata = some cpu') (bounded : FcsrBounded cpu) :
    FcsrBounded cpu' := by
  by_cases other : reg ∈ [RvCsr.fcsr, .fflags, .frm]
  · have field : ∀ fcsr mask value : U64, fcsr &&& rvFcsrMask = fcsr →
        value &&& rvFcsrMask = value →
        ((fcsr &&& ~~~mask) ||| value) &&& rvFcsrMask = (fcsr &&& ~~~mask) ||| value := by
      intro fcsr mask value old new
      rw [BitVec.and_or_distrib_right, new, BitVec.and_assoc, BitVec.and_comm (~~~mask),
        ← BitVec.and_assoc, old]
    rw [FcsrBounded] at bounded ⊢
    simp only [List.mem_cons, List.not_mem_nil, or_false] at other
    rcases other with rfl | rfl | rfl <;> simp only [rvCsrWriteReg] at stored <;>
      split_ifs at stored <;> cases stored
    · change (wdata &&& rvFcsrMask) &&& rvFcsrMask = wdata &&& rvFcsrMask
      rw [BitVec.and_assoc, BitVec.and_self]
    · apply field _ _ _ bounded
      have fields : rvFflagsMask &&& rvFcsrMask = rvFflagsMask := by decide
      rw [BitVec.and_assoc, fields]
    · apply field _ _ _ bounded
      have fields : rvFrmMask <<< rvFcsrFrmBaseBit &&& rvFcsrMask =
          rvFrmMask <<< rvFcsrFrmBaseBit := by decide
      rw [BitVec.shiftLeft_and_distrib, BitVec.and_assoc, fields]
  · have same := (rvCsrWriteReg_fpSame other stored).fcsr
    rw [FcsrBounded, same]
    exact bounded

theorem Executes.fcsrMoves {out : ExecOutcome δ} (executes : Executes mc m h insn out) (i : Nat) :
    FcsrMoves (i = h → ¬WritesFcsr (m.cpus h) insn) (m.cpus i) (out.machine.cpus i) := by
  have kept : ∀ {m' : EmuMachine δ}, CoresKept m m' → FlagsAccrue (m.cpus i) (m'.cpus i) :=
    fun kept => (kept i).fpSame.flagsAccrue
  cases executes with
  | kept kept' => exact (kept kept').moves _
  | xreg kept' value =>
      exact ((kept kept').trans (fpSame_xreg _ _ _).flagsAccrue.setCpu).moves _
  | jump value target even =>
      have linked : FlagsAccrue (m.cpus i) ((m.writeXreg h (rvInsnRd insn) value).cpus i) :=
        (fpSame_xreg _ _ _).flagsAccrue.setCpu
      exact (linked.trans (flagsAccrue_setCpu (by rfl))).moves _
  | branch target even => exact FlagsAccrue.moves (flagsAccrue_setCpu (by rfl)) _
  | fpLoad kept' form legal value =>
      exact ((kept kept').trans (flagsAccrue_setCpu (by rfl))).moves _
  | opFp form format computes => exact (computes.flagsAccrue i).moves _
  | fused form format chosen =>
      exact FlagsAccrue.moves
        ((rvFloatFused_accrues _ _ _).trans (flagsAccrue_accrue _ _)).setCpu _
  | @csr rdata cpu form read written =>
      have moved : FlagsAccrue cpu (rvXregWrite cpu (rvInsnRd insn) rdata) :=
        (fpSame_xreg _ _ _).flagsAccrue
      by_cases mine : i = h
      · subst mine
        rw [ExecOutcome.machine, EmuMachine.setCpu_same]
        rcases doCsrWrite_cases form read written with rfl | ⟨reg, wdata, writes, stored⟩
        · exact moved.moves _
        · refine ⟨fun quiet => ?_,
            fun before => moved.bounded (rvCsrWriteReg_fcsrBounded stored before)⟩
          have other : reg ∉ [RvCsr.fcsr, .fflags, .frm] :=
            fun known => quiet rfl ⟨reg, known, wdata, writes⟩
          exact (rvCsrWriteReg_fpSame other stored).flagsAccrue.trans moved
      · rw [ExecOutcome.machine, EmuMachine.setCpu_other _ _ mine]
        exact (FlagsAccrue.refl _).moves _
  | mret word machine => exact FlagsAccrue.moves (flagsAccrue_setCpu (by rfl)) _
  | sret word legal => exact FlagsAccrue.moves (flagsAccrue_setCpu (by rfl)) _
  | abort level => exact (FlagsAccrue.refl _).moves _
  | trap kept' epc exception => exact (kept kept').moves _
  | minMax form format op illegal =>
      exact FlagsAccrue.moves (rvFloatMinMax_accrues _ _ _).setCpu _

end Words

/-! ### Steps -/

section Steps

variable {mc : EmuConfig δ} {m m' : EmuMachine δ} {h i : Nat}

theorem rvTrapEnter_flagsAccrue (cpu : RvCpu) (trap : RvTrap) :
    FlagsAccrue cpu (rvTrapEnter cpu trap) := by
  unfold rvTrapEnter
  split <;> exact .of_eq rfl

theorem rvDoTrap_flagsAccrue (hooks : mc.HooksKeep fun cpu => cpu.csr.fcsr) (m : EmuMachine δ)
    (h i : Nat) (trap : RvTrap) : FlagsAccrue (m.cpus i) ((rvDoTrap mc m h trap).cpus i) := by
  simp only [rvDoTrap]
  split
  · exact (rvTrapEnter_flagsAccrue _ _).setCpu
  split
  · exact (rvTrapEnter_flagsAccrue _ _).setCpu
  · next hook found =>
      have after : FlagsAccrue (m.cpus i) ((hook m h trap).2.cpus i) :=
        .of_eq (hooks _ hook found m h trap i)
      split
      · exact after.trans (rvTrapEnter_flagsAccrue _ _).setCpu
      · exact after

theorem rvCheckInterrupts_flagsAccrue (hooks : mc.HooksKeep fun cpu => cpu.csr.fcsr)
    (m : EmuMachine δ) (h i : Nat) :
    FlagsAccrue (m.cpus i) ((rvCheckInterrupts mc m h).cpus i) := by
  unfold rvCheckInterrupts
  split
  · exact .refl _
  · exact rvDoTrap_flagsAccrue hooks m h i _

theorem rvForcefeedInsn_fcsrMoves (hooks : mc.HooksKeep fun cpu => cpu.csr.fcsr) (insn : U32) :
    FcsrMoves (i = h → ¬WritesFcsr (m.cpus h) insn) (m.cpus i)
      ((rvForcefeedInsn mc m h insn).cpus i) := by
  obtain ⟨out, executes, finished⟩ := rvForcefeedInsn_executes mc m h insn
  have moves := executes.fcsrMoves i
  rw [finished]
  cases out with
  | next m' => exact moves
  | trap m' trap => exact moves.trans ((rvDoTrap_flagsAccrue hooks m' h i trap).moves _)

/-- What happens to the machine writes `fcsr` of hart `i` as a control register. -/
def EventWritesFcsr (mc : EmuConfig δ) (i : Nat) (m : EmuMachine δ) : MachineEvent δ → Prop
  | .step h => i = h ∧ ∃ m' insn, rvFetchInsn mc m h = .word m' insn ∧ WritesFcsr (m'.cpus h) insn
  | .insn h insn => i = h ∧ WritesFcsr (m.cpus h) insn
  | _ => False

theorem rvStepInsn_fcsrMoves (hooks : mc.HooksKeep fun cpu => cpu.csr.fcsr) :
    FcsrMoves (¬EventWritesFcsr mc i m (.step h)) (m.cpus i) ((rvStepInsn mc m h).cpus i) := by
  have fetched := rvFetchInsn_fetched mc m h
  unfold rvStepInsn rvStepInsnBy
  simp only [EventWritesFcsr]
  generalize rvFetchInsn mc m h = outcome at fetched
  cases fetched with
  | fault kept epc exception =>
      exact ((kept i).fpSame.flagsAccrue.trans (rvDoTrap_flagsAccrue hooks _ h i _)).moves _
  | @illegal m' kept hw =>
      have located : FlagsAccrue (m.cpus i)
          ((m'.setCpu h { m'.cpus h with epc := (m.cpus h).pc }).cpus i) :=
        (kept i).fpSame.flagsAccrue.trans (flagsAccrue_setCpu rfl)
      exact (located.trans (rvDoTrap_flagsAccrue hooks _ h i _)).moves _
  | @word m' kept insn len even =>
      have located : FlagsAccrue (m.cpus i) ((m'.setCpu h
          { m'.cpus h with epc := (m.cpus h).pc, pc := (m.cpus h).pc + len }).cpus i) :=
        (kept i).fpSame.flagsAccrue.trans (flagsAccrue_setCpu rfl)
      have executed := rvForcefeedInsn_fcsrMoves (m := m'.setCpu h
        { m'.cpus h with epc := (m.cpus h).pc, pc := (m.cpus h).pc + len }) (h := h) (i := i)
        hooks insn
      have checked := rvCheckInterrupts_flagsAccrue hooks (rvForcefeedInsn mc (m'.setCpu h
        { m'.cpus h with epc := (m.cpus h).pc, pc := (m.cpus h).pc + len }) h insn) h i
      refine ⟨fun quiet => (located.trans (executed.accrues ?_)).trans checked,
        fun before => checked.bounded (executed.bounded (located.bounded before))⟩
      exact fun mine writes => quiet ⟨mine, _, _, rfl, writes⟩

theorem machineStep_fcsrMoves (hooks : mc.HooksKeep fun cpu => cpu.csr.fcsr)
    (e : MachineEvent δ) :
    FcsrMoves (¬EventWritesFcsr mc i m e) (m.cpus i) ((machineStep mc m e).cpus i) := by
  cases e with
  | step h => exact rvStepInsn_fcsrMoves hooks
  | insn h insn =>
      have executed := rvForcefeedInsn_fcsrMoves (m := m) (h := h) (i := i) hooks insn
      exact ⟨fun quiet => executed.accrues fun mine writes => quiet ⟨mine, writes⟩,
        executed.bounded⟩
  | trap h trap => exact (rvDoTrap_flagsAccrue hooks m h i trap).moves _
  | interrupts h => exact (rvCheckInterrupts_flagsAccrue hooks m h i).moves _
  | devices bus => exact FlagsAccrue.moves (.of_eq (by rfl)) _
  | load ram => exact (FlagsAccrue.refl _).moves _

end Steps

/-! ### Runs -/

theorem fcsrBounded_run {mc : EmuConfig δ} (hooks : mc.HooksKeep fun cpu => cpu.csr.fcsr)
    (device : δ) (h : Nat) (events : List (MachineEvent δ)) :
    FcsrBounded ((run (machineStep mc) (emuMachineInit device) events).cpus h) := by
  have start : FcsrBounded ((emuMachineInit device).cpus h) := by
    change (0 : U64) &&& rvFcsrMask = 0
    decide
  refine invariant_run_always (I := fun m : EmuMachine δ => FcsrBounded (m.cpus h)) ?_ events start
  exact fun m e before => (machineStep_fcsrMoves hooks e).bounded before

/-- As long as hart `h` does not write `fcsr` as a control register, no rounding mode
changes and no exception flag is lost, whatever it computes, traps on or is interrupted by
and whatever the other harts do, if all that is stored in a TLB is inside its array. -/
theorem flags_sticky (mc : EmuConfig δ) (hooks : mc.HooksKeep fun cpu => cpu.csr.fcsr)
    (m : EmuMachine δ) (h : Nat) (events : List (MachineEvent δ))
    (inside : StepsMeet (hostStep mc) (StoresInArray mc) m events)
    (quiet : StepsMeet (hostStep mc) (fun m e => ¬EventWritesFcsr mc h m e) m events) (i : Nat) :
    ((m.cpus h).csr.fcsr.getLsbD i = true →
      ((run (hostStep mc) m events).cpus h).csr.fcsr.getLsbD i = true) ∧
    (rvFcsrFrmBaseBit ≤ i → ((run (hostStep mc) m events).cpus h).csr.fcsr.getLsbD i =
      (m.cpus h).csr.fcsr.getLsbD i) := by
  rw [hostStepsMeet_iff inside] at quiet
  rw [hostRun_eq inside]
  have accrued : FlagsAccrue (m.cpus h) ((run (machineStep mc) m events).cpus h) := by
    refine invariant_run (I := fun now => FlagsAccrue (m.cpus h) (now.cpus h)) ?_
      (FlagsAccrue.refl _) quiet
    exact fun now e before quiet => before.trans ((machineStep_fcsrMoves hooks e).accrues quiet)
  exact accrued.getLsbD i

/-- A hart with FS on and a signaling NaN in `f2`. -/
def signalingHart : EmuMachine Unit :=
  { emuMachineInit () with
    cpus := fun h =>
      let cpu := (emuMachineInit ()).cpus h
      { cpu with
        csr := { cpu.csr with mstatus := 3#64 <<< rvStatusFsBaseBit, fcsr := 0x21 }
        fregs := fun _ => 0xffffffff7f800001 } }

/-- `fmin.s f1, f2, f3` raises NV, and the flag stays raised. -/
theorem flags_sticky_nv :
    (((signalingHart.cpus 0).csr.fcsr.getLsbD 0 = true →
      ((run (hostStep (EmuConfig.ramOnly 0 0x1000 1)) signalingHart
        [.insn 0 0x283100d3, .insn 0 0x00000013]).cpus 0).csr.fcsr.getLsbD 0 = true) ∧
    (rvFcsrFrmBaseBit ≤ 0 → ((run (hostStep (EmuConfig.ramOnly 0 0x1000 1)) signalingHart
        [.insn 0 0x283100d3, .insn 0 0x00000013]).cpus 0).csr.fcsr.getLsbD 0 =
      (signalingHart.cpus 0).csr.fcsr.getLsbD 0)) := by
  have plain : ∀ insn : U32, rvOpMajOf insn ≠ some .system → ∀ cpu, ¬WritesFcsr cpu insn := by
    rintro insn other cpu ⟨_, _, _, writes⟩
    exact other writes.1.1
  refine flags_sticky (EmuConfig.ramOnly 0 0x1000 1) (EmuConfig.NoHooks.keeps (fun _ => rfl) _)
    signalingHart 0 [.insn 0 0x283100d3, .insn 0 0x00000013]
    (storesInArray_run (fun _ => rfl) (fun _ _ _ => rfl) (by decide +kernel)) ?_ 0
  exact ⟨fun writes => plain _ (by decide) _ writes.2,
    fun writes => plain _ (by decide) _ writes.2, trivial⟩

end Riscmulator
