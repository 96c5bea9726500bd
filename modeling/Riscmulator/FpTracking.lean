import Riscmulator.FpDirty
import Riscmulator.PmpLocks

/-! Each word that writes the floating-point state changes it in some machine, and
FS stays as it was. -/

namespace Riscmulator

open BitField

variable {δ : Type}

/-! ### Machines -/

/-- Every operation raises all flags; a classification, NV for a signaling NaN. -/
def raisingFpu : HostFpu where
  binop32 _ _ _ _ := (0, rvFflagsMask)
  binop64 _ _ _ _ := (0, rvFflagsMask)
  compare32 _ _ _ := (false, rvFflagsMask)
  compare64 _ _ _ := (false, rvFflagsMask)
  sqrt32 _ _ := (0, rvFflagsMask)
  sqrt64 _ _ := (0, rvFflagsMask)
  fma32 _ _ _ _ := (0, rvFflagsMask)
  fma64 _ _ _ _ := (0, rvFflagsMask)
  f32ToF64 _ := (0, rvFflagsMask)
  f64ToF32 _ _ := (0, rvFflagsMask)
  intToF32 _ _ _ := (0, rvFflagsMask)
  intToF64 _ _ _ := (0, rvFflagsMask)
  rint _ _ := (0, rvFflagsMask)
  f64ToInt _ _ := (0, rvFflagsMask)
  classify32 f := if rvIsSnan (boxF32 f) false then bit rvFflagsNvBit else 0
  classify64 f := if rvIsSnan f true then bit rvFflagsNvBit else 0

/-- RAM from address 0 on, over all of memory. -/
def fpConfig : EmuConfig δ where
  ramStart := 0
  ramEnd := BitVec.allOnes 64
  cpuCount := 1
  mmio := []
  trapHook := fun _ => none
  rvFloatExactMath := false
  fpu := raisingFpu
  softfloat := default

theorem fpConfig_noHooks : (fpConfig : EmuConfig δ).NoHooks := fun _ => rfl

/-- A core at reset, with FS and the registers given. -/
def fpCore (fs : BitVec 2) (fregs xregs : BitVec 5 → U64) (fcsr : U64) : RvCpu :=
  { (emuMachineInit ()).cpus 0 with
    fregs := fregs
    xregs := xregs
    csr := { ((emuMachineInit ()).cpus 0).csr with
      mstatus := fs.setWidth 64 <<< rvStatusFsBaseBit
      fcsr := fcsr } }

def fpMachine (device : δ) (cpu : RvCpu) : EmuMachine δ :=
  { emuMachineInit device with cpus := fun _ => cpu }

/-- The word changes the floating-point state of some core with this FS. -/
def FpChanges (device : δ) (fs : BitVec 2) (insn : U32) : Prop :=
  ∃ fregs xregs fcsr, ¬FpSame (fpCore fs fregs xregs fcsr)
    ((rvForcefeedInsn fpConfig (fpMachine device (fpCore fs fregs xregs fcsr)) 0 insn).cpus 0)

section Words

variable {device : δ} {fs : BitVec 2} {insn : U32} {fregs xregs : BitVec 5 → U64} {fcsr : U64}

theorem rvStatusFs_fpCore : rvStatusFs (fpCore fs fregs xregs fcsr) = fs := by
  apply BitVec.eq_of_getLsbD_eq
  intro i inside
  rw [rvStatusFs_getLsbD _ inside, fpCore, getLsbD_shiftField fs (by decide)]
  simp

theorem fpCore_on (on : fs ≠ rvXstateOff) :
    rvCheckXs (fpCore fs fregs xregs fcsr).csr.mstatus rvStatusFsBaseBit = true := by
  rw [rvStatusFs_on, rvStatusFs_fpCore]
  exact on

/-! ### Loads -/

/-- With no entry configured, M-mode may access everything. -/
theorem rvPmpCheck_off {cpu : RvCpu} (off : ∀ i, cpu.csr.pmpcfgUnpacked i = 0) (paddr size : U64) :
    rvPmpCheck cpu paddr size true = 7 := by
  have goes : ∀ i, rvPmpEntry cpu paddr (paddr + size - 1) true i = none := by
    intro i
    simp [rvPmpEntry, rvPmpApplies, off]
  rw [rvPmpCheck, List.findSome?_eq_none_iff.mpr fun i _ => goes i]
  rfl

theorem ramLoad_zero (idx : U64) (n : Nat) : ramLoad (fun _ => 0) idx n = 0 := by
  induction n generalizing idx with
  | zero => rfl
  | succ n ih =>
      rw [ramLoad, ih]
      rfl

/-- A load finds zeros at every address. -/
theorem fpMachine_load (addr : U64) (sizeExp : Fin 4) :
    rvAccessVirt fpConfig (fpMachine device (fpCore fs fregs xregs fcsr)) 0 addr 0 sizeExp .load =
      ⟨.ok, fpMachine device (fpCore fs fregs xregs fcsr), some 0,
        [⟨addr, bit sizeExp.val, true⟩]⟩ := by
  have bare : rvIsBare ((fpMachine device (fpCore fs fregs xregs fcsr)).cpus 0) .load = true := rfl
  have off : ∀ i, (fpCore fs fregs xregs fcsr).csr.pmpcfgUnpacked i = 0 := by
    intro i
    have config : (fpCore fs fregs xregs fcsr).csr.pmpcfg =
        ((emuMachineInit ()).cpus 0).csr.pmpcfg := rfl
    rw [RvCsrState.pmpcfgUnpacked, config]
    exact emuMachineInit_pmpOff () 0 i
  have granted : doPmpCheck ((fpMachine device (fpCore fs fregs xregs fcsr)).cpus 0) addr
      (bit sizeExp.val) .load = .ok := by
    change (if (rvPmpCheck (fpCore fs fregs xregs fcsr) addr _ true).getLsbD _ then _ else _) = _
    rw [rvPmpCheck_off off]
    rfl
  have inRam : ramHoldsRange (fpConfig : EmuConfig δ) addr (bit sizeExp.val) = true := by
    rw [ramHoldsRange, Bool.and_eq_true, decide_eq_true_eq, decide_eq_true_eq]
    have top : ∀ x : U64, x ≤ BitVec.allOnes 64 := by
      intro x
      rw [BitVec.le_def, BitVec.toNat_allOnes]
      omega
    exact ⟨Nat.zero_le _, top _⟩
  have zeros : (fpMachine device (fpCore fs fregs xregs fcsr)).ram = fun _ => 0 := rfl
  have empty : ∀ n, spliceLow 0 0 n = 0 := by
    intro n
    simp [spliceLow]
  rw [rvAccessVirt, rvAccessVirtBy, if_pos bare, rvAccessPhys]
  simp only [granted, rvAccessPhysUnchecked, inRam, ramTransfer, zeros, ramLoad_zero, empty]
  rfl

theorem not_fpSame_freg {cpu : RvCpu} {index : BitVec 5} {value : U64}
    (differs : value ≠ cpu.fregs index) : ¬FpSame cpu (rvFregWrite cpu index value) := by
  intro same
  have written := congrFun same.fregs index
  simp only [rvFregWrite, Function.update_self] at written
  exact differs written

theorem fpChanges_load (device : δ) (on : fs ≠ rvXstateOff)
    (form : rvOpMajOf insn = some .loadFp) (size : rvInsnFunct3 insn &&& 6 = 2) :
    FpChanges device fs insn := by
  refine ⟨fun _ => 1, fun _ => 0, 0, ?_⟩
  have legal : rvFpAccessIllegal (fpCore fs (fun _ => 1) (fun _ => 0) 0) insn = false := by
    rw [rvFpAccessIllegal, fpCore_on on, size]
    simp
  have loads : ∀ funct3 : BitVec 3, funct3 &&& 6 = 2 → (rvLoadSizeExp funct3).isSome = true ∧
      (if funct3 = 2 then rvLoadExtend funct3 0 ||| 0xffffffff00000000
        else rvLoadExtend funct3 0) ≠ 1 := by decide
  rcases Option.isSome_iff_exists.mp (loads _ size).1 with ⟨sizeExp, sized⟩
  have cpu : (fpMachine device (fpCore fs (fun _ => 1) (fun _ => 0) 0)).cpus 0 =
      fpCore fs (fun _ => 1) (fun _ => 0) 0 := rfl
  have float := (opMaj_float form).2 (Or.inl rfl)
  simp only [rvForcefeedInsn, form, rvBaseLoad, cpu, legal, sized, fpMachine_load, float,
    EmuMachine.setCpu_same, Option.getD_some, Bool.false_eq_true, if_false, if_true, ne_eq,
    not_true_eq_false]
  exact not_fpSame_freg (loads _ size).2

/-! ### Flags -/

theorem not_fpSame_flags {cpu cpu' : RvCpu} (clear : cpu.csr.fcsr = 0)
    (raised : cpu'.csr.fcsr.getLsbD rvFflagsNvBit = true) : ¬FpSame cpu cpu' := by
  intro same
  rw [same.fcsr, clear] at raised
  cases raised

theorem fpChanges_compare (device : δ) (on : fs ≠ rvXstateOff) {f64 : Bool}
    (form : rvOpMajOf insn = some .opFp) (format : rvFloatFormat insn = some f64)
    (op : rvInsnFunct5 insn = 0b10100) (listed : rvInsnFunct3 insn < 3) :
    FpChanges device fs insn := by
  refine ⟨fun _ => 0, fun _ => 0, 0, ?_⟩
  have computed : ∃ cpu, rvFloatCompare (fpConfig : EmuConfig δ)
      (fpCore fs (fun _ => 0) (fun _ => 0) 0) insn f64 = some cpu ∧
      cpu.csr.fcsr.getLsbD rvFflagsNvBit = true := by
    have cases : ∀ funct3 : BitVec 3, funct3 < 3 → funct3 = 0 ∨ funct3 = 1 ∨ funct3 = 2 := by decide
    have raised : rvFflagsMask.getLsbD rvFflagsNvBit = true := by decide
    simp only [rvFloatCompare]
    rcases cases _ listed with known | known | known <;> rw [known] <;>
      cases f64 <;> exact ⟨_, rfl, rvAccrue_raises _ raised⟩
  rcases computed with ⟨cpu, computed, raised⟩
  have own : (fpMachine device (fpCore fs (fun _ => 0) (fun _ => 0) 0)).cpus 0 =
      fpCore fs (fun _ => 0) (fun _ => 0) 0 := rfl
  simp only [rvForcefeedInsn, form, rvFloatOpFp, own, fpCore_on on, format, op, computed,
    Bool.not_true, Bool.false_eq_true, if_false, if_true, EmuMachine.setCpu_same]
  exact not_fpSame_flags rfl raised

/-- FMIN and FMAX raise NV for a signaling operand, also when the word is illegal. -/
theorem rvFloatMinMax_raises (mc : EmuConfig δ) {cpu : RvCpu} (round : FeRound) {f64 : Bool}
    (signaling : rvIsSnan (rvFregReadAs cpu f64 (rvInsnRs1 insn)) f64 = true) :
    (rvFloatMinMax mc cpu round insn f64).1.csr.fcsr.getLsbD rvFflagsNvBit = true := by
  have nv : (bit rvFflagsNvBit).getLsbD rvFflagsNvBit = true := by decide
  have raised := rvAccrue_raises cpu nv
  simp only [rvFloatMinMax, signaling, Bool.true_or, if_true]
  split
  · exact raised
  · split <;> exact raised

/-- The first signaling NaN of a format, boxed. -/
def signalingNan (f64 : Bool) : U64 := if f64 then 0x7ff0000000000001 else 0xffffffff7f800001

theorem signalingNan_read {cpu : RvCpu} {index : BitVec 5} {f64 : Bool}
    (held : cpu.fregs index = signalingNan f64) :
    rvIsSnan (rvFregReadAs cpu f64 index) f64 = true := by
  have read : ∀ f64, rvIsSnan (if f64 then signalingNan f64 else
      if signalingNan f64 >>> 32 ≠ 0xFFFFFFFF then boxF32 rvCanonicalNanF32
      else signalingNan f64) f64 = true := by decide
  rw [rvFregReadAs, rvFregReadF32, rvFregRead, held]
  exact read f64

theorem fpChanges_minMax (device : δ) (on : fs ≠ rvXstateOff) {f64 : Bool}
    (form : rvOpMajOf insn = some .opFp) (format : rvFloatFormat insn = some f64)
    (op : rvInsnFunct5 insn = 0b00101) : FpChanges device fs insn := by
  refine ⟨fun _ => signalingNan f64, fun _ => 0, 0, ?_⟩
  generalize core : fpCore fs (fun _ => signalingNan f64) (fun _ => 0) 0 = cpu
  have signaling : rvIsSnan (rvFregReadAs cpu f64 (rvInsnRs1 insn)) f64 = true := by
    apply signalingNan_read
    rw [← core]
    rfl
  have clear : cpu.csr.fcsr = 0 := by rw [← core]; rfl
  have own : FpFormat ((fpMachine device cpu).cpus 0) insn f64 := by
    refine ⟨?_, format⟩
    rw [← core]
    exact fpCore_on on
  have raised := rvFloatMinMax_raises (fpConfig : EmuConfig δ) ((fpMachine device cpu).feround 0)
    signaling
  simp only [rvForcefeedInsn, form, rvFloatOpFp_minMax own op]
  split
  · rw [rvDoIillegal, rvDoTrap_noHooks fpConfig_noHooks, EmuMachine.setCpu_same]
    apply not_fpSame_flags clear
    rw [(rvTrapEnter_fpSame _ _).fcsr, EmuMachine.setCpu_same]
    exact raised
  · rw [EmuMachine.setCpu_same]
    exact not_fpSame_flags clear raised

/-! ### Sign injection -/

theorem fpChanges_sgnj (device : δ) (on : fs ≠ rvXstateOff) {f64 : Bool}
    (form : rvOpMajOf insn = some .opFp) (format : rvFloatFormat insn = some f64)
    (op : rvInsnFunct5 insn = 0b00100) (listed : rvInsnFunct3 insn < 3)
    (moves : ¬SgnjOwn insn f64) : FpChanges device fs insn := by
  have changes : ∀ fregs : BitVec 5 → U64, ∀ cpu, fpCore fs fregs (fun _ => 0) 0 = cpu →
      sgnjValue (rvInsnFunct3 insn) f64 (rvFregReadAs cpu f64 (rvInsnRs1 insn))
        (rvFregReadAs cpu f64 (rvInsnRs2 insn)) ≠ fregs (rvInsnRd insn) →
      FpChanges device fs insn := by
    intro fregs cpu core differs
    refine ⟨fregs, fun _ => 0, 0, ?_⟩
    have own : (fpMachine device cpu).cpus 0 = cpu := rfl
    have compare : (0b00100 : BitVec 5) ≠ 0b10100 := by decide
    have enabled : rvCheckXs cpu.csr.mstatus rvStatusFsBaseBit = true := by
      rw [← core]
      exact fpCore_on on
    rw [core]
    simp only [rvForcefeedInsn, form, rvFloatOpFp, own, enabled, format, op,
      rvFloatSgnj_eq cpu f64 listed, if_neg compare, Bool.not_true, Bool.false_eq_true, if_false,
      if_true, EmuMachine.setCpu_same]
    apply not_fpSame_freg
    rw [← core] at differs ⊢
    exact differs
  cases f64 with
  | false =>
      -- A word that is not boxed reads as a NaN, and what is written is boxed.
      have written : ∀ funct3 : BitVec 3, funct3 < 3 →
          sgnjValue funct3 false (boxF32 rvCanonicalNanF32) (boxF32 rvCanonicalNanF32) ≠ 0 := by
        decide
      have unboxed : ∀ index, rvFregReadAs (fpCore fs (fun _ => 0) (fun _ => 0) 0) false index =
          boxF32 rvCanonicalNanF32 := by
        intro index
        have differs : (0 : U64) >>> 32 ≠ 0xFFFFFFFF := by decide
        exact if_pos differs
      refine changes (fun _ => 0) _ rfl ?_
      rw [unboxed, unboxed]
      exact written _ listed
  | true =>
      have cases : ∀ funct3 : BitVec 3, funct3 < 3 → funct3 = 0 ∨ funct3 = 1 ∨ funct3 = 2 := by
        decide
      rcases cases _ listed with plain | negated | flipped
      · by_cases rs1 : rvInsnRs1 insn = rvInsnRd insn
        · have rs2 : rvInsnRs2 insn ≠ rvInsnRd insn := fun rs2 => moves ⟨rfl, plain, rs1, rs2⟩
          refine changes (fun i => if i = rvInsnRd insn then 0 else bit 63) _ rfl ?_
          simp only [rvFregReadAs, rvFregRead, fpCore, rs1, if_neg rs2, if_true, plain]
          decide
        · refine changes (fun i => if i = rvInsnRd insn then 1 else 0) _ rfl ?_
          simp only [rvFregReadAs, rvFregRead, fpCore, if_neg rs1, if_true, plain]
          split <;> decide
      · refine changes (fun _ => 0) _ rfl ?_
        simp only [rvFregReadAs, rvFregRead, fpCore, if_true, negated]
        decide
      · refine changes (fun _ => bit 63) _ rfl ?_
        simp only [rvFregReadAs, rvFregRead, fpCore, if_true, flipped]
        decide

/-! ### Arithmetic -/

theorem ftoxHelper_raises (round : FeRound) (ty : FpInt) (isNan : Bool) (value flags : U64) :
    (ftoxHelper (fpConfig : EmuConfig δ) round ty isNan value flags).2.getLsbD rvFflagsNvBit =
      true := by
  have raised : (bit rvFflagsNvBit).getLsbD rvFflagsNvBit = true := by decide
  simp only [ftoxHelper]
  cases isNan
  · simp only [fpConfig, raisingFpu, Bool.not_false, if_true, Bool.false_eq_true, if_false,
      BitVec.getLsbD_or, raised, Bool.or_true]
  · simp only [if_true, BitVec.getLsbD_or, raised, Bool.or_true]

/-- Every operation with a rounding mode but the moves and FCLASS raises flags. -/
theorem rvFloatRounded_raises (cpu : RvCpu) {env : FpEnv} (host : env.soft = false) (f64 : Bool)
    (op : rvInsnFunct5 insn ∈ [0b00000, 0b00001, 0b00010, 0b00011, 0b01011, 0b01000, 0b11010,
      0b11000]) :
    ∃ out, rvFloatRounded (fpConfig : EmuConfig δ) cpu insn env f64 = some out ∧
      out.2.host.getLsbD rvFflagsNvBit = true := by
  simp only [List.mem_cons, List.not_mem_nil, or_false] at op
  have raised : rvFflagsMask.getLsbD rvFflagsNvBit = true := by decide
  have binop : ∀ op, (rvFloatBinop (fpConfig : EmuConfig δ) op cpu insn env f64).2.host.getLsbD
      rvFflagsNvBit = true := by
    intro op
    simp only [rvFloatBinop, host]
    cases f64 <;> exact raised
  unfold rvFloatRounded
  rcases op with op | op | op | op | op | op | op | op <;> rw [op]
  · exact ⟨_, rfl, binop .add⟩
  · exact ⟨_, rfl, binop .sub⟩
  · exact ⟨_, rfl, binop .mul⟩
  · exact ⟨_, rfl, binop .div⟩
  · refine ⟨_, rfl, ?_⟩
    simp only [rvFloatSqrt, host]
    cases f64 <;> exact raised
  · refine ⟨_, rfl, ?_⟩
    simp only [rvFloatFtof, host]
    cases f64 <;> exact raised
  · refine ⟨_, rfl, ?_⟩
    simp only [rvFloatXtof, host]
    cases f64 <;> exact raised
  · refine ⟨_, rfl, ?_⟩
    simp only [rvFloatFtox, host]
    cases f64
    · exact ftoxHelper_raises _ _ _ _ _
    · exact ftoxHelper_raises _ _ _ _ _

theorem fpChanges_rounded (device : δ) (on : fs ≠ rvXstateOff) {f64 : Bool}
    (form : rvOpMajOf insn = some .opFp) (format : rvFloatFormat insn = some f64)
    (op : rvInsnFunct5 insn ∈ [0b00000, 0b00001, 0b00010, 0b00011, 0b01011, 0b01000, 0b11010,
      0b11000, 0b11110]) : FpChanges device fs insn := by
  refine ⟨fun _ => 1, fun _ => 0, 0, ?_⟩
  generalize core : fpCore fs (fun _ => 1) (fun _ => 0) 0 = cpu
  have clear : cpu.csr.fcsr = 0 := by rw [← core]; rfl
  have own : FpFormat ((fpMachine device cpu).cpus 0) insn f64 := by
    refine ⟨?_, format⟩
    rw [← core]
    exact fpCore_on on
  have others : ∀ op : BitVec 5, op ∈ [0b00000, 0b00001, 0b00010, 0b00011, 0b01011, 0b01000,
      0b11010, 0b11000, 0b11110] → op ≠ 0b10100 ∧ op ≠ 0b00100 ∧ op ≠ 0b00101 := by decide
  rcases others _ op with ⟨compare, sgnj, minMax⟩
  generalize chosen : rvFloatEnv (fpConfig : EmuConfig δ) ((fpMachine device cpu).cpus 0) insn
    ((fpMachine device cpu).feround 0) = env
  have host : env.soft = false := by rw [← chosen]; rfl
  simp only [rvForcefeedInsn, form, rvFloatOpFp_rounded fpConfig own compare sgnj minMax chosen]
  by_cases move : rvInsnFunct5 insn = 0b11110
  · have computed : rvFloatRounded (fpConfig : EmuConfig δ) ((fpMachine device cpu).cpus 0) insn
        env f64 = some (rvFloatMvfx cpu insn f64) := by
      unfold rvFloatRounded
      rw [move]
      rfl
    rw [computed, Option.elim_some, rvFloatFinish, EmuMachine.setCpu_same]
    have moved : rvFloatMvfx cpu insn f64 = (rvFregWrite cpu (rvInsnRd insn)
        (if f64 then 0 else boxF32 (lowF32 0)), .none) := by
      rw [← core]
      rfl
    have differs : (if f64 then 0 else boxF32 (lowF32 0)) ≠ cpu.fregs (rvInsnRd insn) := by
      rw [← core]
      cases f64
      · exact show boxF32 (lowF32 0) ≠ 1 by decide
      · exact show (0 : U64) ≠ 1 by decide
    rw [moved]
    intro same
    exact not_fpSame_freg differs ⟨same.fregs, rfl⟩
  · have raising : rvInsnFunct5 insn ∈ [0b00000, 0b00001, 0b00010, 0b00011, 0b01011, 0b01000,
        0b11010, 0b11000] := by
      simpa only [List.mem_cons, List.not_mem_nil, or_false, move] using op
    rcases rvFloatRounded_raises ((fpMachine device cpu).cpus 0) host f64 raising with
      ⟨out, computed, raised⟩
    rw [computed, Option.elim_some, rvFloatFinish, EmuMachine.setCpu_same, host]
    exact not_fpSame_flags clear (rvAccrue_raises _ raised)

/-- The host raises NV when FCLASS classifies a signaling NaN. -/
theorem rvFloatMvxfFclass_raises {cpu : RvCpu} {f64 : Bool} (classify : rvInsnFunct3 insn = 1)
    (held : cpu.fregs (rvInsnRs1 insn) = signalingNan f64) :
    (rvFloatMvxfFclass (fpConfig : EmuConfig δ) cpu insn f64).2.host.getLsbD rvFflagsNvBit =
      true := by
  cases f64
  · have read : rvFregReadF32 cpu (rvInsnRs1 insn) = signalingNan false := by
      have boxed : ¬signalingNan false >>> 32 ≠ 0xFFFFFFFF := by decide
      rw [rvFregReadF32, rvFregRead, held, if_neg boxed]
    have raised : (raisingFpu.classify32 (lowF32 (signalingNan false))).getLsbD rvFflagsNvBit =
        true := by decide
    simp only [rvFloatMvxfFclass, classify, read, Bool.not_false, and_self, if_true,
      Bool.false_eq_true, if_false]
    exact raised
  · have raised : (raisingFpu.classify64 (signalingNan true)).getLsbD rvFflagsNvBit = true := by
      decide
    simp only [rvFloatMvxfFclass, classify, Bool.not_true, Bool.false_eq_true, and_false, if_true,
      if_false, rvFregRead, held]
    exact raised

theorem fpChanges_classify (device : δ) (on : fs ≠ rvXstateOff) {f64 : Bool}
    (form : rvOpMajOf insn = some .opFp) (format : rvFloatFormat insn = some f64)
    (op : rvInsnFunct5 insn = 0b11100) (classify : rvInsnFunct3 insn = 1) :
    FpChanges device fs insn := by
  refine ⟨fun _ => signalingNan f64, fun _ => 0, 0, ?_⟩
  generalize core : fpCore fs (fun _ => signalingNan f64) (fun _ => 0) 0 = cpu
  have clear : cpu.csr.fcsr = 0 := by rw [← core]; rfl
  have held : cpu.fregs (rvInsnRs1 insn) = signalingNan f64 := by rw [← core]; rfl
  have own : FpFormat ((fpMachine device cpu).cpus 0) insn f64 := by
    refine ⟨?_, format⟩
    rw [← core]
    exact fpCore_on on
  have others : rvInsnFunct5 insn ≠ 0b10100 ∧ rvInsnFunct5 insn ≠ 0b00100 ∧
      rvInsnFunct5 insn ≠ 0b00101 := by
    rw [op]
    decide
  generalize chosen : rvFloatEnv (fpConfig : EmuConfig δ) ((fpMachine device cpu).cpus 0) insn
    ((fpMachine device cpu).feround 0) = env
  have host : env.soft = false := by rw [← chosen]; rfl
  have computed : rvFloatRounded (fpConfig : EmuConfig δ) ((fpMachine device cpu).cpus 0) insn
      env f64 = some (rvFloatMvxfFclass (fpConfig : EmuConfig δ) cpu insn f64) := by
    unfold rvFloatRounded
    rw [op]
    rfl
  simp only [rvForcefeedInsn, form,
    rvFloatOpFp_rounded fpConfig own others.1 others.2.1 others.2.2 chosen, computed,
    Option.elim_some, rvFloatFinish, EmuMachine.setCpu_same, host]
  exact not_fpSame_flags clear (rvAccrue_raises _ (rvFloatMvxfFclass_raises classify held))

theorem fpChanges_fused (device : δ) (on : fs ≠ rvXstateOff) {f64 : Bool}
    (form : rvOpMajOf insn ∈ [some .madd, some .nmadd, some .msub, some .nmsub])
    (format : rvFloatFormat insn = some f64) : FpChanges device fs insn := by
  refine ⟨fun _ => 0, fun _ => 0, 0, ?_⟩
  generalize core : fpCore fs (fun _ => 0) (fun _ => 0) 0 = cpu
  have clear : cpu.csr.fcsr = 0 := by rw [← core]; rfl
  have own : (fpMachine device cpu).cpus 0 = cpu := rfl
  have enabled : rvCheckXs cpu.csr.mstatus rvStatusFsBaseBit = true := by
    rw [← core]
    exact fpCore_on on
  have handler : rvForcefeedInsn fpConfig (fpMachine device cpu) 0 insn =
      rvFloatFmadd fpConfig (fpMachine device cpu) 0 insn := by
    simp only [List.mem_cons, List.not_mem_nil, or_false] at form
    rcases form with form | form | form | form <;> simp only [rvForcefeedInsn, form]
  have raised : ∀ env : FpEnv, env.soft = false →
      (rvFloatFused (fpConfig : EmuConfig δ) cpu insn env f64).2.host.getLsbD rvFflagsNvBit =
        true := by
    intro env host
    have raised : rvFflagsMask.getLsbD rvFflagsNvBit = true := by decide
    simp only [rvFloatFused, host]
    cases f64 <;> exact raised
  rw [handler]
  simp only [rvFloatFmadd, own, enabled, format, Bool.not_true, Bool.false_eq_true, if_false,
    rvFloatFinish, EmuMachine.setCpu_same]
  exact not_fpSame_flags clear (rvAccrue_raises _ (raised _ rfl))

/-! ### CSR instructions -/

/-- A CSR instruction that writes one of the registers reads it, if at all, and
stores what it makes of the value. -/
theorem fpCore_csr (device : δ) {cpu : RvCpu} (machine : cpu.privilege = 3)
    (on : rvCheckXs cpu.csr.mstatus rvStatusFsBaseBit = true) (form : IsCsrInsn insn) {reg : RvCsr}
    (known : reg ∈ [RvCsr.fcsr, .fflags, .frm])
    (index : rvCsrOfIndex (rvInsnUimm12 insn).toNat = some reg) (stores : CsrStores insn) :
    ∃ rdata cpu', (rvInsnFunct3 insn &&& 3 ≠ 1 → rvCsrReadReg cpu reg = some rdata) ∧
      rvCsrWriteReg cpu reg (doCsrWdata insn rdata (doCsrSource cpu insn).1) = some cpu' ∧
      (rvForcefeedInsn fpConfig (fpMachine device cpu) 0 insn).cpus 0 =
        rvXregWrite cpu' (rvInsnRd insn) rdata := by
  have level : ¬rvCsrPriv (rvInsnUimm12 insn).toNat > cpu.privilege.toNat := by
    rw [machine, rvCsrPriv]
    have three : (3 : U8).toNat = 3 := rfl
    omega
  have reads : ∃ rdata, rvCsrReadReg cpu reg = some rdata := by
    simp only [List.mem_cons, List.not_mem_nil, or_false] at known
    rcases known with rfl | rfl | rfl <;> exact ⟨_, if_pos on⟩
  have writes : ∀ wdata, ∃ cpu', rvCsrWriteReg cpu reg wdata = some cpu' := by
    intro wdata
    simp only [List.mem_cons, List.not_mem_nil, or_false] at known
    rcases known with rfl | rfl | rfl <;> exact ⟨_, if_pos on⟩
  have read : ∃ rdata, doCsrRead cpu insn = some rdata ∧
      (rvInsnFunct3 insn &&& 3 ≠ 1 → rvCsrReadReg cpu reg = some rdata) := by
    rcases reads with ⟨rdata, reads⟩
    by_cases needed : rvInsnRd insn ≠ 0 ∨ (rvInsnFunct3 insn &&& 3) ≠ 1
    · refine ⟨rdata, ?_, fun _ => reads⟩
      rw [doCsrRead, if_pos needed, rvCsrRead, if_neg level, index]
      exact reads
    · refine ⟨0, ?_, fun replaces => absurd (Or.inr replaces) needed⟩
      rw [doCsrRead, if_neg needed]
  rcases read with ⟨rdata, read, value⟩
  rcases writes (doCsrWdata insn rdata (doCsrSource cpu insn).1) with ⟨cpu', written⟩
  refine ⟨rdata, cpu', value, written, ?_⟩
  have stored : doCsrWrite cpu insn rdata = some cpu' := by
    simp only [doCsrWrite]
    rw [if_pos (doCsrSource_stores.mpr stores), rvCsrWrite, if_neg level, index]
    exact written
  have system : rvInsnFunct3 insn ≠ 0 := by
    intro zero
    exact form.2 (by rw [zero]; rfl)
  have own : (fpMachine device cpu).cpus 0 = cpu := rfl
  simp only [rvForcefeedInsn, form.1, rvBaseSystem, if_pos system, doCsr, own, read, form.2,
    stored, if_false, EmuMachine.setCpu_same]

theorem fpChanges_fcsr (device : δ) (on : fs ≠ rvXstateOff) (form : IsCsrInsn insn)
    (index : rvCsrOfIndex (rvInsnUimm12 insn).toNat = some .fcsr) (stores : CsrStores insn) :
    FpChanges device fs insn := by
  -- A write clears the bits above the flags and the rounding mode.
  refine ⟨fun _ => 0, fun _ => 0, BitVec.allOnes 64, ?_⟩
  rcases fpCore_csr device rfl (fpCore_on on) form (by decide) index stores with
    ⟨rdata, cpu, _, written, after⟩
  rw [after]
  intro same
  rw [rvCsrWriteReg, if_pos (fpCore_on on), Option.some.injEq] at written
  have fcsr := (fpSame_xreg cpu (rvInsnRd insn) rdata).fcsr.symm.trans same.fcsr
  rw [← written] at fcsr
  have top := congrArg (fun word => word.getLsbD 63) fcsr
  have masked : rvFcsrMask.getLsbD 63 = false := by decide
  simp only [RvCpu.withCsr, fpCore, BitVec.getLsbD_and, masked, Bool.and_false] at top
  cases top

/-- The two fields of `fcsr` with a register of their own. -/
def IsFcsrField (reg : RvCsr) (mask : U64) : Prop :=
  (reg = .fflags ∧ mask = rvFflagsMask) ∨ (reg = .frm ∧ mask = rvFrmMask)

theorem IsFcsrField.readback {cpu cpu' : RvCpu} {reg : RvCsr} {mask wdata : U64}
    (field : IsFcsrField reg mask) (written : rvCsrWriteReg cpu reg wdata = some cpu') :
    rvCsrReadReg cpu' reg = some (wdata &&& mask) := by
  rcases field with ⟨rfl, rfl⟩ | ⟨rfl, rfl⟩
  · simp only [rvCsrWriteReg] at written
    split at written
    · next on =>
        cases written
        simp only [rvCsrReadReg, RvCpu.withCsr, on, if_true, Option.some.injEq]
        apply BitVec.eq_of_getLsbD_eq
        intro i _
        rw [BitVec.getLsbD_and, getLsbD_replace, BitVec.getLsbD_and]
        cases rvFflagsMask.getLsbD i <;> simp
    · cases written
  · simp only [rvCsrWriteReg] at written
    split at written
    · next on =>
        cases written
        simp only [rvCsrReadReg, RvCpu.withCsr, on, if_true, Option.some.injEq]
        apply BitVec.eq_of_getLsbD_eq
        intro i inside
        have low : ∀ i < 64, rvFrmMask.getLsbD i = true → i < 3 := by decide
        rw [BitVec.getLsbD_and, BitVec.getLsbD_and, BitVec.getLsbD_ushiftRight, BitVec.getLsbD_or,
          getLsbD_and_not, BitVec.getLsbD_shiftLeft, BitVec.getLsbD_shiftLeft, BitVec.getLsbD_and,
          Nat.add_sub_cancel_left]
        cases own : rvFrmMask.getLsbD i
        · simp
        · have small : rvFcsrFrmBaseBit + i < 64 := by
            have three := low i inside own
            rw [rvFcsrFrmBaseBit]
            omega
          simp [small]
    · cases written

/-- The field is in `fcsr` and can be read while FS is not Off. -/
theorem IsFcsrField.congr {cpu cpu' : RvCpu} {reg : RvCsr} {mask : U64}
    (field : IsFcsrField reg mask) (mstatus : cpu'.csr.mstatus = cpu.csr.mstatus)
    (fcsr : cpu'.csr.fcsr = cpu.csr.fcsr) : rvCsrReadReg cpu' reg = rvCsrReadReg cpu reg := by
  rcases field with ⟨rfl, rfl⟩ | ⟨rfl, rfl⟩ <;> simp only [rvCsrReadReg, mstatus, fcsr]

/-- A field that a write with this operand changes. -/
theorem exists_moved (form : rvInsnFunct3 insn &&& 3 ≠ 0) {source mask : U64} (nonzero : mask ≠ 0)
    (operand : rvInsnFunct3 insn &&& 3 ≠ 1 → source &&& mask ≠ 0) :
    ∃ old, ∀ rdata, (rvInsnFunct3 insn &&& 3 ≠ 1 → rdata = old &&& mask) →
      doCsrWdata insn rdata source &&& mask ≠ old &&& mask := by
  have cases : ∀ op : BitVec 3, op &&& 3 ≠ 0 → op &&& 3 = 1 ∨ op &&& 3 = 2 ∨ op &&& 3 = 3 := by
    decide
  rcases cases _ form with op | op | op
  · refine ⟨~~~source, fun rdata _ => ?_⟩
    have value : doCsrWdata insn rdata source = source := by
      simp only [doCsrWdata, op]
      rfl
    rw [value]
    intro same
    apply nonzero
    rw [eq_zero_iff]
    intro i
    have bits := congrArg (fun word => word.getLsbD i) same
    simp only [BitVec.getLsbD_and, BitVec.getLsbD_not] at bits
    by_cases inside : i < 64
    · cases own : mask.getLsbD i with
      | false => rfl
      | true =>
          rw [own, decide_eq_true inside] at bits
          cases set : source.getLsbD i <;> rw [set] at bits <;> cases bits
    · exact BitVec.getLsbD_of_ge _ _ (by omega)
  · have sets : rvInsnFunct3 insn &&& 3 ≠ 1 := by rw [op]; decide
    refine ⟨0, fun rdata read => ?_⟩
    have value : doCsrWdata insn rdata source = rdata ||| source := by
      simp only [doCsrWdata, op]
      rfl
    have zero : (0 : U64) &&& mask = 0 := BitVec.zero_and
    rw [value, read sets, zero]
    have none' : (0 : U64) ||| source = source := BitVec.zero_or
    rw [none']
    exact operand sets
  · have clears : rvInsnFunct3 insn &&& 3 ≠ 1 := by rw [op]; decide
    refine ⟨mask, fun rdata read => ?_⟩
    have value : doCsrWdata insn rdata source = rdata &&& ~~~source := by
      simp only [doCsrWdata, op]
      rfl
    rw [value, read clears, BitVec.and_self]
    intro same
    apply operand clears
    rw [eq_zero_iff]
    intro i
    have bits := congrArg (fun word => word.getLsbD i) same
    rw [BitVec.getLsbD_and, getLsbD_and_not] at bits
    rw [BitVec.getLsbD_and]
    cases own : mask.getLsbD i <;> cases set : source.getLsbD i <;> simp_all

theorem fpChanges_field (device : δ) (on : fs ≠ rvXstateOff) (form : IsCsrInsn insn) {reg : RvCsr}
    {mask : U64} (field : IsFcsrField reg mask)
    (index : rvCsrOfIndex (rvInsnUimm12 insn).toNat = some reg) (moves : CsrMoves insn mask) :
    FpChanges device fs insn := by
  have known : reg ∈ [RvCsr.fcsr, .fflags, .frm] := by
    rcases field with ⟨rfl, _⟩ | ⟨rfl, _⟩ <;> decide
  have nonzero : mask ≠ 0 := by
    rcases field with ⟨_, rfl⟩ | ⟨_, rfl⟩ <;> decide
  -- Every register but x0 holds ones.
  obtain ⟨xregs, ones⟩ : ∃ xregs : BitVec 5 → U64, ∀ i, i ≠ 0 → xregs i = BitVec.allOnes 64 :=
    ⟨fun i => if i = 0 then 0 else BitVec.allOnes 64, fun i used => if_neg used⟩
  have source : ∀ fcsr, (doCsrSource (fpCore fs (fun _ => 0) xregs fcsr) insn).1 =
      (doCsrSource (fpCore fs (fun _ => 0) xregs 0) insn).1 := fun _ => rfl
  have operand : rvInsnFunct3 insn &&& 3 ≠ 1 →
      (doCsrSource (fpCore fs (fun _ => 0) xregs 0) insn).1 &&& mask ≠ 0 := by
    intro keeps
    rcases moves with replaces | moved
    · exact absurd replaces keeps
    simp only [doCsrSource]
    split at moved
    · next immediate =>
        rw [if_pos immediate]
        exact moved
    · next register =>
        rw [if_neg register, rvXregRead]
        have value : (fpCore fs (fun _ => 0) xregs 0).xregs (rvInsnRs1 insn) = BitVec.allOnes 64 :=
          ones _ moved
        rw [value, BitVec.allOnes_and]
        exact nonzero
  rcases exists_moved form.2 nonzero operand with ⟨old, moved⟩
  have stores : CsrStores insn := by
    rcases moves with replaces | moved
    · exact Or.inr (Or.inl replaces)
    split at moved
    · next immediate => exact Or.inl immediate
    · exact Or.inr (Or.inr moved)
  -- The core whose field holds the old value.
  have start : ∃ fcsr,
      rvCsrReadReg (fpCore fs (fun _ => 0) xregs fcsr) reg = some (old &&& mask) := by
    have written : ∃ cpu, rvCsrWriteReg (fpCore fs (fun _ => 0) xregs 0) reg old = some cpu ∧
        cpu.csr.mstatus = (fpCore fs (fun _ => 0) xregs 0).csr.mstatus := by
      rcases field with ⟨rfl, _⟩ | ⟨rfl, _⟩ <;> exact ⟨_, if_pos (fpCore_on on), rfl⟩
    rcases written with ⟨cpu, written, mstatus⟩
    refine ⟨cpu.csr.fcsr, ?_⟩
    rw [← field.readback written]
    exact field.congr mstatus.symm rfl
  rcases start with ⟨fcsr, start⟩
  refine ⟨fun _ => 0, xregs, fcsr, ?_⟩
  rcases fpCore_csr device rfl (fpCore_on on) form known index stores with
    ⟨rdata, cpu, read, written, after⟩
  rw [after]
  intro same
  have held : rvCsrReadReg cpu reg = some (old &&& mask) := by
    rw [← start]
    refine field.congr ?_ ((fpSame_xreg cpu (rvInsnRd insn) rdata).fcsr.symm.trans same.fcsr)
    rw [rvCsrWriteReg_mstatus written]
    rcases field with ⟨rfl, _⟩ | ⟨rfl, _⟩ <;> rfl
  rw [field.readback written, Option.some.injEq, source] at held
  refine moved rdata (fun keeps => ?_) held
  rw [read keeps, Option.some.injEq] at start
  exact start

/-! ### All words -/

theorem FpWrites.changes (writes : FpWrites insn) (device : δ) (on : fs ≠ rvXstateOff) :
    FpChanges device fs insn := by
  cases writes with
  | load form size => exact fpChanges_load device on form size
  | opFp form format writes =>
      cases writes with
      | compare op listed => exact fpChanges_compare device on form format op listed
      | sgnj op listed moves => exact fpChanges_sgnj device on form format op listed moves
      | minMax op => exact fpChanges_minMax device on form format op
      | classify op funct3 => exact fpChanges_classify device on form format op funct3
      | rounded op => exact fpChanges_rounded device on form format op
  | fused form format => exact fpChanges_fused device on form format
  | fcsr form index stores => exact fpChanges_fcsr device on form index stores
  | fflags form index moves =>
      exact fpChanges_field device on form (Or.inl ⟨rfl, rfl⟩) index moves
  | frm form index moves => exact fpChanges_field device on form (Or.inr ⟨rfl, rfl⟩) index moves

end Words

/-- Without hooks, a word that changes the floating-point state leaves FS alone. -/
theorem rvForcefeedInsn_fs {mc : EmuConfig δ} (hooks : mc.NoHooks) {m : EmuMachine δ} {h : Nat}
    {insn : U32} (level : (m.cpus h).privilege ≤ 3)
    (changed : ¬FpSame (m.cpus h) ((rvForcefeedInsn mc m h insn).cpus h)) :
    rvStatusFs ((rvForcefeedInsn mc m h insn).cpus h) = rvStatusFs (m.cpus h) := by
  rcases rvForcefeedInsn_executes mc m h insn with ⟨out, executes, finished⟩
  rw [finished] at changed ⊢
  have finish : FpSame (out.machine.cpus h) ((out.finish mc h).cpus h) ∧
      ((out.machine.cpus h).privilege ≤ 3 →
        rvStatusFs ((out.finish mc h).cpus h) = rvStatusFs (out.machine.cpus h)) := by
    cases out with
    | next m' => exact ⟨FpSame.refl _, fun _ => rfl⟩
    | trap m' raised =>
        rw [ExecOutcome.finish, rvDoTrap_noHooks hooks, EmuMachine.setCpu_same]
        exact ⟨rvTrapEnter_fpSame _ _, rvTrapEnter_fs raised⟩
  rcases executes.fp with same | fp
  · exact absurd (same.trans finish.1) changed
  · rw [finish.2 (fp.privilege ▸ level), rvStatusFs, fp.mstatus]
    rfl

/-- Over all machines, a word whose TLB stores are inside the array tracks its changes
exactly if FS is Dirty or Off before, or it is not one that writes the floating-point
state. -/
theorem fpTracked_iff [Inhabited δ] (fs : BitVec 2) (insn : U32) :
    (∀ (mc : EmuConfig δ) (m : EmuMachine δ) (h : Nat), mc.HooksKeep RvCpu.fp →
      StoresInArray mc m (.insn h insn) → rvStatusFs (m.cpus h) = fs →
        FpTracked (m.cpus h) ((hostStep mc m (.insn h insn)).cpus h)) ↔
      fs = rvXstateDirty ∨ fs = rvXstateOff ∨ ¬FpWrites insn := by
  constructor
  · intro tracked
    by_contra meets
    push Not at meets
    rcases meets with ⟨clean, on, writes⟩
    rcases writes.changes (default : δ) on with ⟨fregs, xregs, fcsr, changed⟩
    have bare : MachineEvent.Untranslated (fpMachine default (fpCore fs fregs xregs fcsr))
        (.insn 0 insn : MachineEvent δ) :=
      show rvSatpMode 0 = 0 by decide
    have stores : StoresInArray fpConfig (fpMachine default (fpCore fs fregs xregs fcsr))
        (.insn 0 insn) := storesInArray_bare bare fun _ _ _ => rfl
    have same : hostStep fpConfig (fpMachine default (fpCore fs fregs xregs fcsr)) (.insn 0 insn) =
        rvForcefeedInsn fpConfig (fpMachine default (fpCore fs fregs xregs fcsr)) 0 insn :=
      hostStep_eq stores
    have dirty := tracked fpConfig (fpMachine default (fpCore fs fregs xregs fcsr)) 0
      (fun _ _ none' => by cases none') stores rvStatusFs_fpCore
    rw [same] at dirty
    have dirty := dirty changed
    rw [rvForcefeedInsn_fs fpConfig_noHooks (by decide : (3 : U8) ≤ 3) changed] at dirty
    exact clean (rvStatusFs_fpCore.symm.trans dirty)
  · intro meets mc m h hooks stores same
    rw [hostStep_eq stores]
    apply rvForcefeedInsn_tracked hooks
    rw [same]
    exact meets

/-- FMV.D.X with FS Initial. -/
theorem fpTracked_moved :
    ¬∀ (mc : EmuConfig Unit) (m : EmuMachine Unit) (h : Nat) (insn : U32), mc.NoHooks →
      FpTracked (m.cpus h) ((hostStep mc m (.insn h insn)).cpus h) := by
  intro tracked
  have dirty := tracked (EmuConfig.ramOnly 0 0x1000 1)
    (fpMachine () (fpCore 1 (fun _ => 1) (fun _ => 0) 0)) 0 0xf2000053 (fun _ => rfl)
  refine absurd (dirty fun same => ?_) (by decide +kernel)
  have written := congrFun same.fregs 0
  exact absurd written (by decide +kernel)

end Riscmulator
