import Riscmulator.Outcomes
import Riscmulator.HostMemory

/-! Precise exceptions: the registers a handler finds, against those at the start
of the step that raised the exception. -/

namespace Riscmulator

variable {δ : Type}

/-! ### Exceptions -/

/-- Executing the word ends in a synchronous exception: whatever the hooks are, in
the same trap on the same machine. -/
def RaisesException (mc : EmuConfig δ) (m : EmuMachine δ) (h : Nat) (insn : U32) : Prop :=
  ∃ m' trap, trap.isInterrupt = false ∧ ∀ hooks,
    rvForcefeedInsn (mc.hooked hooks) m h insn = rvDoTrap (mc.hooked hooks) m' h trap

/-- The step ends in a synchronous exception, and no interrupt is taken after it. -/
def StepRaises (mc : EmuConfig δ) (m : EmuMachine δ) (h : Nat) : Prop :=
  match rvFetchInsn mc m h with
  | .fault _ _ => True
  | .illegal _ _ => True
  | .word m' insn => RaisesException mc m' h insn ∧
      rvInterruptCause ((rvForcefeedInsn mc m' h insn).cpus h) = none

/-- The return address of a handler, in the register of the mode that it runs in. -/
def handlerEpc (cpu : RvCpu) : U64 := if cpu.privilege = 1 then cpu.csr.sepc else cpu.csr.mepc

/-- A handler finds the program counter and the registers of the step it interrupts. -/
structure Precise (cpu cpu' : RvCpu) : Prop where
  epc : handlerEpc cpu' = cpu.pc
  xregs : cpu'.xregs = cpu.xregs
  fregs : cpu'.fregs = cpu.fregs
  fcsr : cpu'.csr.fcsr = cpu.csr.fcsr

/-- The word is an FMIN or FMAX with a reserved `funct3` and a signaling operand,
and NV is not set yet. -/
structure FlagsReserved (cpu : RvCpu) (insn : U32) : Prop where
  form : rvOpMajOf insn = some .opFp
  op : rvInsnFunct5 insn = 0b00101
  reserved : rvInsnFunct3 insn > 1
  signaling : ∃ f64, FpFormat cpu insn f64 ∧
    (rvIsSnan (rvFregReadAs cpu f64 (rvInsnRs1 insn)) f64 ||
      rvIsSnan (rvFregReadAs cpu f64 (rvInsnRs2 insn)) f64) = true
  clear : cpu.csr.fcsr.getLsbD rvFflagsNvBit = false

/-- The step fetches such a word. -/
def StepFlagsReserved (mc : EmuConfig δ) (m : EmuMachine δ) (h : Nat) : Prop :=
  ∃ m' insn, rvFetchInsn mc m h = .word m' insn ∧ FlagsReserved (m.cpus h) insn

/-! ### Trap entry -/

theorem rvTrapEnter_xregs (cpu : RvCpu) (trap : RvTrap) :
    (rvTrapEnter cpu trap).xregs = cpu.xregs := by
  unfold rvTrapEnter
  split <;> rfl

theorem rvTrapEnter_fp (cpu : RvCpu) (trap : RvTrap) :
    (rvTrapEnter cpu trap).fregs = cpu.fregs ∧
      (rvTrapEnter cpu trap).csr.fcsr = cpu.csr.fcsr := by
  unfold rvTrapEnter
  split <;> exact ⟨rfl, rfl⟩

theorem rvTrapEnter_handlerEpc (cpu : RvCpu) (trap : RvTrap) :
    handlerEpc (rvTrapEnter cpu trap) = trap.epc := by
  unfold rvTrapEnter
  split <;> rfl

/-- A trap entry is precise if the registers it is taken with are those of the start. -/
theorem precise_enter_iff {cpu cpu' : RvCpu} {trap : RvTrap} (epc : trap.epc = cpu.pc)
    (xregs : cpu'.xregs = cpu.xregs) (fregs : cpu'.fregs = cpu.fregs) :
    Precise cpu (rvTrapEnter cpu' trap) ↔ cpu'.csr.fcsr = cpu.csr.fcsr := by
  have fp := rvTrapEnter_fp cpu' trap
  constructor
  · intro precise
    exact fp.2.symm.trans precise.fcsr
  · intro fcsr
    exact ⟨(rvTrapEnter_handlerEpc _ _).trans epc, (rvTrapEnter_xregs _ _).trans xregs,
      fp.1.trans fregs, fp.2.trans fcsr⟩

/-! ### FMIN and FMAX -/

section MinMax

variable {mc : EmuConfig δ} {cpu : RvCpu} {round : FeRound} {insn : U32} {f64 : Bool}

theorem rvFloatMinMaxResult_none {lhs rhs : U64}
    (rejected : rvFloatMinMaxResult mc round insn f64 lhs rhs = none) : rvInsnFunct3 insn > 1 := by
  have known : ∀ funct3 : BitVec 3, funct3 ≠ 0 → funct3 ≠ 1 → funct3 > 1 := by decide
  simp only [rvFloatMinMaxResult] at rejected
  generalize (if f64 = true then isnanF64 lhs else isnanF32 (lowF32 lhs)) = lhsNan at rejected
  generalize (if f64 = true then isnanF64 rhs else isnanF32 (lowF32 rhs)) = rhsNan at rejected
  iterate 5
    split at rejected
    · cases rejected
  split at rejected
  · cases rejected
  · cases rejected
  · next notMin notMax => exact known _ notMin notMax

theorem rvFloatMinMax_illegal_iff :
    (rvFloatMinMax mc cpu round insn f64).2 = true ↔ rvInsnFunct3 insn > 1 := by
  simp only [rvFloatMinMax]
  split
  · next rejected => exact iff_of_true rfl (rvFloatMinMaxResult_none rejected)
  · split
    · next reserved => exact iff_of_true rfl reserved
    · next listed => exact iff_of_false Bool.false_ne_true listed

/-- An illegal FMIN or FMAX has set NV for a signaling operand. -/
theorem rvFloatMinMax_illegal (illegal : (rvFloatMinMax mc cpu round insn f64).2 = true) :
    (rvFloatMinMax mc cpu round insn f64).1 =
      if rvIsSnan (rvFregReadAs cpu f64 (rvInsnRs1 insn)) f64 ||
          rvIsSnan (rvFregReadAs cpu f64 (rvInsnRs2 insn)) f64 then
        rvAccrue cpu (bit rvFflagsNvBit)
      else cpu := by
  simp only [rvFloatMinMax] at illegal ⊢
  split at illegal
  · rfl
  · split at illegal
    · next reserved => rw [if_pos reserved]
    · cases illegal

theorem rvAccrue_nv (cpu : RvCpu) :
    (rvAccrue cpu (bit rvFflagsNvBit)).csr.fcsr = cpu.csr.fcsr ↔
      cpu.csr.fcsr.getLsbD rvFflagsNvBit = true := by
  constructor
  · intro same
    rw [← same]
    exact rvAccrue_raises cpu (by decide)
  · intro set
    have masked : bit rvFflagsNvBit &&& rvFflagsMask = bit rvFflagsNvBit := by decide
    have own : cpu.csr.fcsr &&& bit rvFflagsNvBit = bit rvFflagsNvBit := by
      apply BitVec.eq_of_getLsbD_eq
      intro i _
      rw [BitVec.getLsbD_and, bit, BitField.getLsbD_one_shiftLeft]
      by_cases here : i = rvFflagsNvBit
      · rw [here, set, Bool.true_and]
      · simp [here]
    calc
      (rvAccrue cpu (bit rvFflagsNvBit)).csr.fcsr =
          cpu.csr.fcsr ||| (bit rvFflagsNvBit &&& rvFflagsMask) := rfl
      _ = cpu.csr.fcsr ||| bit rvFflagsNvBit := by rw [masked]
      _ = cpu.csr.fcsr := (BitField.or_eq_self_iff _ _).mpr own

/-- An illegal FMIN or FMAX keeps `fcsr` unless it sets NV. -/
theorem rvFloatMinMax_fcsr_iff (form : rvOpMajOf insn = some .opFp) (format : FpFormat cpu insn f64)
    (op : rvInsnFunct5 insn = 0b00101)
    (illegal : (rvFloatMinMax mc cpu round insn f64).2 = true) :
    (rvFloatMinMax mc cpu round insn f64).1.csr.fcsr = cpu.csr.fcsr ↔ ¬FlagsReserved cpu insn := by
  have reserved := rvFloatMinMax_illegal_iff.mp illegal
  rw [rvFloatMinMax_illegal illegal]
  split
  · next signaling =>
      rw [rvAccrue_nv]
      constructor
      · intro set flags
        rw [flags.clear] at set
        cases set
      · intro notFlags
        by_contra clear
        exact notFlags ⟨form, op, reserved, ⟨f64, format, signaling⟩, Bool.not_eq_true _ ▸ clear⟩
  · next quiet =>
      apply iff_of_true rfl
      rintro ⟨_, _, _, ⟨f64', format', signaling⟩, _⟩
      obtain rfl : f64' = f64 := Option.some.inj (format'.format.symm.trans format.format)
      exact quiet signaling

theorem rvFloatMinMax_kept (cpu : RvCpu)
    (illegal : (rvFloatMinMax mc cpu round insn f64).2 = true) :
    (rvFloatMinMax mc cpu round insn f64).1.xregs = cpu.xregs ∧
      (rvFloatMinMax mc cpu round insn f64).1.fregs = cpu.fregs := by
  rw [rvFloatMinMax_illegal illegal]
  split <;> exact ⟨rfl, rfl⟩

end MinMax

/-! ### Steps -/

section Steps

variable {mc : EmuConfig δ} {m : EmuMachine δ} {h : Nat}

/-- A trap hook for every cause that stops the trap and leaves a mark. -/
def markTraps (mark : Bool) : Nat → Option (EmuMachine δ → Nat → RvTrap → Bool × EmuMachine δ) :=
  fun _ => some fun m _ _ => (false, { m with aborted := mark })

/-- A word that raises an exception does not come to a next machine. -/
theorem RaisesException.not_next {insn : U32} (raises : RaisesException mc m h insn)
    {next : EmuMachine δ} : ¬∀ hooks, rvForcefeedInsn (mc.hooked hooks) m h insn = next := by
  intro same
  rcases raises with ⟨m', trap, exception, trapped⟩
  have marked : ∀ mark : Bool, mark = next.aborted := by
    intro mark
    rw [← same (markTraps mark), trapped (markTraps mark)]
    simp only [rvDoTrap, exception, EmuConfig.hooked, markTraps, Bool.false_eq_true, if_false]
  exact absurd ((marked true).trans (marked false).symm) (by decide)

theorem FlagsReserved.congr {cpu cpu' : RvCpu} {insn : U32} (fregs : cpu'.fregs = cpu.fregs)
    (csr : cpu'.csr = cpu.csr) : FlagsReserved cpu' insn ↔ FlagsReserved cpu insn := by
  have operand : ∀ f64 index, rvFregReadAs cpu' f64 index = rvFregReadAs cpu f64 index := by
    intro f64 index
    unfold rvFregReadAs rvFregReadF32 rvFregRead
    rw [fregs]
  have format : ∀ f64, FpFormat cpu' insn f64 ↔ FpFormat cpu insn f64 := by
    intro f64
    constructor
    · intro format
      exact ⟨csr ▸ format.on, format.format⟩
    · intro format
      exact ⟨csr ▸ format.on, format.format⟩
  constructor
  · rintro ⟨form, op, reserved, ⟨f64, known, signaling⟩, clear⟩
    simp only [operand] at signaling
    exact ⟨form, op, reserved, ⟨f64, (format f64).mp known, signaling⟩, csr ▸ clear⟩
  · rintro ⟨form, op, reserved, ⟨f64, known, signaling⟩, clear⟩
    simp only [← operand] at signaling
    exact ⟨form, op, reserved, ⟨f64, (format f64).mpr known, signaling⟩, csr ▸ clear⟩

/-- A reserved FMIN or FMAX with a signaling operand sets NV, then traps. -/
theorem FlagsReserved.forcefeed {insn : U32} (flags : FlagsReserved (m.cpus h) insn)
    (mc : EmuConfig δ) : rvForcefeedInsn mc m h insn =
      rvDoIillegal mc (m.setCpu h (rvAccrue (m.cpus h) (bit rvFflagsNvBit))) h insn := by
  rcases flags with ⟨form, op, reserved, ⟨f64, format, signaling⟩, _⟩
  have illegal : (rvFloatMinMax mc (m.cpus h) (m.feround h) insn f64).2 = true :=
    rvFloatMinMax_illegal_iff.mpr reserved
  have accrued := rvFloatMinMax_illegal illegal
  rw [if_pos signaling] at accrued
  simp only [rvForcefeedInsn, form, rvFloatOpFp_minMax format op, illegal, accrued, if_true]

theorem FlagsReserved.raises {insn : U32} (flags : FlagsReserved (m.cpus h) insn)
    (mc : EmuConfig δ) : RaisesException mc m h insn :=
  ⟨_, _, RvCause.isInterrupt .iillegal _ _, fun hooks => flags.forcefeed (mc.hooked hooks)⟩

/-- The machine that such a word traps on has NV set. -/
theorem FlagsReserved.trapped_fcsr {insn : U32} (flags : FlagsReserved (m.cpus h) insn)
    {m' : EmuMachine δ} {trap : RvTrap} (exception : trap.isInterrupt = false)
    (trapped : ∀ hooks, rvForcefeedInsn (mc.hooked hooks) m h insn =
      rvDoTrap (mc.hooked hooks) m' h trap) :
    (m'.cpus h).csr.fcsr.getLsbD rvFflagsNvBit = true := by
  -- A hook that stops every trap shows the machine it is taken on.
  have shown := trapped fun _ => some fun m _ _ => (false, m)
  rw [flags.forcefeed] at shown
  simp only [rvDoIillegal, rvDoTrap, EmuConfig.hooked, exception, RvCause.isInterrupt,
    Bool.false_eq_true, if_false] at shown
  rw [← shown, EmuMachine.setCpu_same]
  exact rvAccrue_raises (m.cpus h) (by decide)

/-- No trap on a machine with the flags of the start is that of such a word. -/
theorem FlagsReserved.not_kept {insn : U32} (flags : FlagsReserved (m.cpus h) insn)
    {m' : EmuMachine δ} {trap : RvTrap} (exception : trap.isInterrupt = false)
    (trapped : ∀ hooks, rvForcefeedInsn (mc.hooked hooks) m h insn =
      rvDoTrap (mc.hooked hooks) m' h trap) : (m'.cpus h).csr.fcsr ≠ (m.cpus h).csr.fcsr := by
  intro kept
  have set := flags.trapped_fcsr exception trapped
  rw [kept, flags.clear] at set
  cases set

/-- The exception of a word is precise for the registers it was fetched with, unless
it sets a flag for a reserved FMIN or FMAX. -/
theorem RaisesException.precise_iff {insn : U32} (raises : RaisesException mc m h insn)
    (hooks : mc.NoHooks) {cpu : RvCpu} (epc : (m.cpus h).epc = cpu.pc)
    (xregs : (m.cpus h).xregs = cpu.xregs) (fregs : (m.cpus h).fregs = cpu.fregs)
    (csr : (m.cpus h).csr = cpu.csr) :
    Precise cpu ((rvForcefeedInsn mc m h insn).cpus h) ↔ ¬FlagsReserved cpu insn := by
  have comes : ComesTo mc m h insn fun mc => rvForcefeedInsn mc m h insn := rvForcefeedInsn_comesTo
  rcases comes with ⟨out, executes, finished⟩
  have own : rvForcefeedInsn mc m h insn = out.finish mc h := finished mc.trapHook
  cases out with
  | next m' => exact absurd finished raises.not_next
  | trap m' trap =>
      rw [own, ExecOutcome.finish, rvDoTrap_noHooks hooks, EmuMachine.setCpu_same,
        ← FlagsReserved.congr fregs csr]
      cases executes with
      | trap kept returns exception =>
          rw [precise_enter_iff (returns.trans epc) ((kept h).xregs.trans xregs)
            ((kept h).fregs.trans fregs), (kept h).csr, csr]
          exact iff_of_true rfl fun flags => flags.not_kept exception finished
            (congrArg RvCsrState.fcsr (kept h).csr)
      | minMax form format op illegal =>
          obtain ⟨sameXregs, sameFregs⟩ := rvFloatMinMax_kept (m.cpus h) illegal
          rw [EmuMachine.setCpu_same, precise_enter_iff epc (sameXregs.trans xregs)
            (sameFregs.trans fregs), ← csr]
          exact rvFloatMinMax_fcsr_iff form format op illegal

theorem rvStepInsn_precise_iff (hooks : mc.NoHooks) (raises : StepRaises mc m h) :
    Precise (m.cpus h) ((rvStepInsn mc m h).cpus h) ↔ ¬StepFlagsReserved mc m h := by
  have fetched := rvFetchInsn_fetched mc m h
  unfold StepRaises at raises
  unfold rvStepInsn rvStepInsnBy StepFlagsReserved
  cases outcome : rvFetchInsn mc m h with
  | fault m' trap =>
      rw [outcome] at fetched
      cases fetched with
      | fault kept epc exception =>
          dsimp only
          rw [rvDoTrap_noHooks hooks, EmuMachine.setCpu_same,
            precise_enter_iff epc (kept h).xregs (kept h).fregs, (kept h).csr]
          refine iff_of_true rfl fun word => ?_
          rcases word with ⟨_, _, same, _⟩
          cases same
  | illegal m' hw =>
      rw [outcome] at fetched
      cases fetched with
      | illegal kept hw =>
          dsimp only
          rw [rvDoIillegal, rvDoTrap_noHooks hooks, EmuMachine.setCpu_same, EmuMachine.setCpu_same]
          refine iff_of_true ?_ fun word => ?_
          · apply (precise_enter_iff rfl ?_ ?_).mpr
            · exact congrArg RvCsrState.fcsr (kept h).csr
            · exact (kept h).xregs
            · exact (kept h).fregs
          · rcases word with ⟨_, _, same, _⟩
            cases same
  | word m' insn =>
      rw [outcome] at fetched raises
      obtain ⟨raised, quiet⟩ := raises
      have settled : rvCheckInterrupts mc (rvForcefeedInsn mc m' h insn) h =
          rvForcefeedInsn mc m' h insn := by rw [rvCheckInterrupts, quiet]
      have flags : (∃ m₀ insn₀, FetchOutcome.word m' insn = .word m₀ insn₀ ∧
          FlagsReserved (m.cpus h) insn₀) ↔ FlagsReserved (m.cpus h) insn := by
        constructor
        · rintro ⟨m₀, insn₀, same, flags⟩
          cases same
          exact flags
        · exact fun flags => ⟨m', insn, rfl, flags⟩
      dsimp only
      rw [settled, flags]
      cases fetched with
      | word kept insn len even =>
          apply raised.precise_iff hooks <;> rw [EmuMachine.setCpu_same]
          · exact (kept h).xregs
          · exact (kept h).fregs
          · exact (kept h).csr

/-- Without hooks, a step that raises an exception, and whose TLB stores stay in their
array, is precise exactly if it does not set a flag for a reserved FMIN or FMAX. -/
theorem preciseStep_iff (mc : EmuConfig δ) (hooks : mc.NoHooks) (m : EmuMachine δ) (h : Nat)
    (inside : StoresInArray mc m (.step h)) (raises : StepRaises mc m h) :
    Precise (m.cpus h) ((hostStepInsn mc m h).cpus h) ↔ ¬StepFlagsReserved mc m h := by
  rw [hostStepInsn_eq inside]
  exact rvStepInsn_precise_iff hooks raises

end Steps

/-! ### One instruction -/

/-- A machine at reset with floating point on and signaling NaNs in its registers,
and a word at the start of RAM. -/
def signalingMachine (word : U32) : EmuMachine Unit :=
  { emuMachineInit () with
    ram := fun i => if i.toNat < 4 then (word >>> (8 * i.toNat)).setWidth 8 else 0
    cpus := fun _ => { (emuMachineInit ()).cpus 0 with
      fregs := fun _ => 0x7ff0000000000001
      csr := { ((emuMachineInit ()).cpus 0).csr with mstatus := 1#64 <<< rvStatusFsBaseBit } } }

theorem ebreak_raises (mc : EmuConfig δ) (m : EmuMachine δ) (h : Nat) :
    RaisesException mc m h (Rvc.encode .ebreak) :=
  ⟨m, _, RvCause.isInterrupt .ebreak (m.cpus h).epc 0, fun _ => rvForcefeedInsn_ebreak _ m h rfl⟩

/-- A breakpoint. -/
theorem preciseStep_iff_ebreak : Precise ((signalingMachine (Rvc.encode .ebreak)).cpus 0)
    ((hostStepInsn (EmuConfig.ramOnly 0 0x1000 1) (signalingMachine (Rvc.encode .ebreak)) 0).cpus
      0) := by
  have fetch := rvFetchInsn_long (EmuConfig.ramOnly 0 0x1000 1)
    (signalingMachine (Rvc.encode .ebreak)) 0 (Rvc.encode .ebreak) rfl (by decide +kernel)
    (by decide +kernel) rfl (by decide +kernel) (by decide +kernel)
  refine (preciseStep_iff (EmuConfig.ramOnly 0 0x1000 1) (fun _ => rfl)
    (signalingMachine (Rvc.encode .ebreak)) 0
    (storesInArray_bare (by decide) (fun _ _ _ => rfl)) ?_).mpr ?_
  · rw [StepRaises, fetch]
    exact ⟨ebreak_raises _ _ 0, by decide +kernel⟩
  · rintro ⟨m', insn, fetched, flags⟩
    rw [fetch] at fetched
    cases fetched
    exact absurd flags.form (by decide)

/-- FMIN with `funct3` 2 is illegal, but sets NV. -/
theorem preciseStep_reserved :
    ¬∀ (mc : EmuConfig Unit) (m : EmuMachine Unit) (h : Nat), mc.NoHooks → StepRaises mc m h →
      Precise (m.cpus h) ((hostStepInsn mc m h).cpus h) := by
  intro always
  have fetch := rvFetchInsn_long (EmuConfig.ramOnly 0 0x1000 1) (signalingMachine 0x2a002053) 0
    0x2a002053 rfl (by decide +kernel) (by decide +kernel) rfl (by decide +kernel)
    (by decide +kernel)
  have raises : StepRaises (EmuConfig.ramOnly 0 0x1000 1) (signalingMachine 0x2a002053) 0 := by
    rw [StepRaises, fetch]
    refine ⟨FlagsReserved.raises ⟨by decide, by decide, by decide, ⟨true, ⟨?_, by decide⟩, ?_⟩,
      ?_⟩ _, ?_⟩
    all_goals decide +kernel
  have precise := always _ _ _ (fun _ => rfl) raises
  exact absurd precise.fcsr (by decide +kernel)

end Riscmulator
