import Riscmulator.FpNan

/-! NaN boxing: single-precision results fill the upper half of their register with
ones, and an operand that is not boxed is read as the canonical NaN. -/

namespace Riscmulator

variable {δ : Type}

/-! ### Two runs of one operation -/

/-- Two cores that an operation on this format reads alike. -/
structure SameOperands (source : Bool) (cpu cpu' : RvCpu) : Prop where
  operand : ∀ idx, rvFregReadAs cpu' source idx = rvFregReadAs cpu source idx
  xregs : cpu'.xregs = cpu.xregs
  csr : cpu'.csr = cpu.csr

/-- Write the destination of an instruction, an integer register or another one. -/
def rvRdWrite (int : Bool) (cpu : RvCpu) (rd : BitVec 5) (value : U64) : RvCpu :=
  if int then rvXregWrite cpu rd value else rvFregWrite cpu rd value

/-- On both cores the same value is written and the same flags are set; a value of
single precision is boxed. -/
def RunsAlike (int single : Bool) (rd : BitVec 5) (cpu cpu' out out' : RvCpu) : Prop :=
  ∃ value flags, out = rvAccrue (rvRdWrite int cpu rd value) flags ∧
    out' = rvAccrue (rvRdWrite int cpu' rd value) flags ∧
      (int = false → single = true → Boxed value)

/-- The same for an operation whose flags are accrued after it. -/
def ComputesAlike (int single : Bool) (rd : BitVec 5) (cpu cpu' : RvCpu)
    (compute : RvCpu → RvCpu × FpFlags) : Prop :=
  ∃ value flags, compute cpu = (rvRdWrite int cpu rd value, flags) ∧
    compute cpu' = (rvRdWrite int cpu' rd value, flags) ∧
      (int = false → single = true → Boxed value)

section Operations

variable {mc : EmuConfig δ} {cpu cpu' : RvCpu} {insn : U32} {env : FpEnv} {f64 source : Bool}

theorem rvFloatBinop_alike (op : FpBinop) (same : SameOperands f64 cpu cpu') :
    ComputesAlike false (!f64) (rvInsnRd insn) cpu cpu'
      fun cpu => rvFloatBinop mc op cpu insn env f64 := by
  simp only [ComputesAlike, rvFloatBinop, same.operand]
  cases env.soft <;> cases f64
  · exact ⟨_, _, rfl, rfl, fun _ _ => boxed_boxF32 _⟩
  · exact ⟨_, _, rfl, rfl, fun _ single => by cases single⟩
  · exact ⟨_, _, rfl, rfl, fun _ _ => boxed_boxF32 _⟩
  · exact ⟨_, _, rfl, rfl, fun _ single => by cases single⟩

theorem rvFloatSqrt_alike (same : SameOperands f64 cpu cpu') :
    ComputesAlike false (!f64) (rvInsnRd insn) cpu cpu'
      fun cpu => rvFloatSqrt mc cpu insn env f64 := by
  simp only [ComputesAlike, rvFloatSqrt, same.operand]
  cases env.soft <;> cases f64
  · exact ⟨_, _, rfl, rfl, fun _ _ => boxed_boxF32 _⟩
  · exact ⟨_, _, rfl, rfl, fun _ single => by cases single⟩
  · exact ⟨_, _, rfl, rfl, fun _ _ => boxed_boxF32 _⟩
  · exact ⟨_, _, rfl, rfl, fun _ single => by cases single⟩

theorem rvFloatFtof_alike (source_eq : decide (rvInsnRs2 insn = 1) = source)
    (same : SameOperands source cpu cpu') :
    ComputesAlike false (!f64) (rvInsnRd insn) cpu cpu'
      fun cpu => rvFloatFtof mc cpu insn env f64 := by
  simp only [ComputesAlike, rvFloatFtof, source_eq, same.operand]
  cases f64
  · simp only [Bool.false_eq_true, if_false]
    cases env.soft
    · exact ⟨_, _, rfl, rfl, fun _ _ => boxed_boxF32 _⟩
    · exact ⟨_, _, rfl, rfl, fun _ _ => boxed_boxF32 _⟩
  · exact ⟨_, _, rfl, rfl, fun _ single => by cases single⟩

theorem rvFloatXtof_alike (xregs : cpu'.xregs = cpu.xregs) :
    ComputesAlike false (!f64) (rvInsnRd insn) cpu cpu'
      fun cpu => rvFloatXtof mc cpu insn env f64 := by
  simp only [ComputesAlike, rvFloatXtof, rvXregRead, xregs]
  cases env.soft <;> cases f64
  · exact ⟨_, _, rfl, rfl, fun _ _ => boxed_boxF32 _⟩
  · exact ⟨_, _, rfl, rfl, fun _ single => by cases single⟩
  · exact ⟨_, _, rfl, rfl, fun _ _ => boxed_boxF32 _⟩
  · exact ⟨_, _, rfl, rfl, fun _ single => by cases single⟩

theorem rvFloatMvfx_alike (xregs : cpu'.xregs = cpu.xregs) :
    ComputesAlike false (!f64) (rvInsnRd insn) cpu cpu'
      fun cpu => rvFloatMvfx cpu insn f64 := by
  simp only [ComputesAlike, rvFloatMvfx, rvXregRead, xregs]
  cases f64
  · exact ⟨_, _, rfl, rfl, fun _ _ => boxed_boxF32 _⟩
  · exact ⟨_, _, rfl, rfl, fun _ single => by cases single⟩

theorem rvFloatFtox_alike (same : SameOperands f64 cpu cpu') :
    ComputesAlike true (!f64) (rvInsnRd insn) cpu cpu'
      fun cpu => rvFloatFtox mc cpu insn env f64 := by
  simp only [ComputesAlike, rvFloatFtox, same.operand]
  exact ⟨_, _, rfl, rfl, fun int => by cases int⟩

theorem rvFloatMvxfFclass_alike (classify : rvInsnFunct3 insn = 1)
    (same : SameOperands f64 cpu cpu') :
    ComputesAlike true (!f64) (rvInsnRd insn) cpu cpu'
      fun cpu => rvFloatMvxfFclass mc cpu insn f64 := by
  have operand := same.operand (rvInsnRs1 insn)
  cases f64
  · have read : rvFregReadF32 cpu' (rvInsnRs1 insn) = rvFregReadF32 cpu (rvInsnRs1 insn) := operand
    simp only [ComputesAlike, rvFloatMvxfFclass, classify, read]
    exact ⟨_, _, rfl, rfl, fun int => by cases int⟩
  · have read : rvFregRead cpu' (rvInsnRs1 insn) = rvFregRead cpu (rvInsnRs1 insn) := operand
    simp only [ComputesAlike, rvFloatMvxfFclass, classify, read]
    exact ⟨_, _, rfl, rfl, fun int => by cases int⟩

/-! ### Flags -/

theorem rvAccrue_zero (cpu : RvCpu) : rvAccrue cpu 0 = cpu := by
  simp [rvAccrue, RvCpu.withCsr]

theorem rvAccrue_accrue (cpu : RvCpu) (first second : U64) :
    rvAccrue (rvAccrue cpu first) second = rvAccrue cpu (first ||| second) := by
  simp only [rvAccrue, RvCpu.withCsr, BitVec.or_assoc, BitVec.and_or_distrib_right]

theorem rvFregWrite_accrue (cpu : RvCpu) (rd : BitVec 5) (value flags : U64) :
    rvFregWrite (rvAccrue cpu flags) rd value = rvAccrue (rvFregWrite cpu rd value) flags := rfl

theorem rvAccrue_if (cpu : RvCpu) (flags : U64) (raised : Bool) :
    (if raised then rvAccrue cpu flags else cpu) = rvAccrue cpu (if raised then flags else 0) := by
  cases raised
  · exact (rvAccrue_zero _).symm
  · rfl

/-! ### Operations that accrue flags themselves -/

variable (mc) in
theorem rvFloatCompare_alike (same : SameOperands f64 cpu cpu') (listed : rvInsnFunct3 insn < 3) :
    ∃ out out', rvFloatCompare mc cpu insn f64 = some out ∧
      rvFloatCompare mc cpu' insn f64 = some out' ∧
        RunsAlike true (!f64) (rvInsnRd insn) cpu cpu' out out' := by
  have known : ∀ funct3 : BitVec 3, funct3 < 3 → funct3 = 0 ∨ funct3 = 1 ∨ funct3 = 2 := by decide
  simp only [rvFloatCompare, same.operand]
  rcases known _ listed with funct3 | funct3 | funct3 <;> rw [funct3]
  · exact ⟨_, _, rfl, rfl, _, _, rfl, rfl, fun int => by cases int⟩
  · exact ⟨_, _, rfl, rfl, _, _, rfl, rfl, fun int => by cases int⟩
  · exact ⟨_, _, rfl, rfl, _, _, rfl, rfl, fun int => by cases int⟩

/-- A sign that is injected into a boxed value leaves it boxed. -/
theorem sgnjValue_boxed (funct3 : BitVec 3) (lhs : U64) {rhs : U64} :
    Boxed (sgnjValue funct3 false lhs rhs) := by
  have upper : ∀ i, 32 ≤ i → i < 64 → (bit 31).getLsbD i = false := by decide
  have ones := boxed_iff.mp (boxed_boxF32 (lowF32 lhs))
  apply boxed_iff.mpr
  intro i high inside
  simp only [sgnjValue, Bool.false_eq_true, if_false]
  split
  · rw [BitVec.getLsbD_or, BitField.getLsbD_and_not, ones i high inside, upper i high inside]
    rfl
  split
  · rw [BitVec.getLsbD_or, BitField.getLsbD_and_not, ones i high inside, upper i high inside]
    rfl
  · rw [BitVec.getLsbD_xor, BitVec.getLsbD_and, ones i high inside, upper i high inside,
      Bool.and_false]
    rfl

theorem rvFloatSgnj_alike (same : SameOperands f64 cpu cpu') (listed : rvInsnFunct3 insn < 3) :
    ∃ out out', rvFloatSgnj cpu insn f64 = some out ∧ rvFloatSgnj cpu' insn f64 = some out' ∧
      RunsAlike false (!f64) (rvInsnRd insn) cpu cpu' out out' := by
  refine ⟨_, _, rvFloatSgnj_eq cpu f64 listed, rvFloatSgnj_eq cpu' f64 listed, _, 0,
    (rvAccrue_zero _).symm, ?_, ?_⟩
  · rw [same.operand, same.operand]
    exact (rvAccrue_zero _).symm
  · intro _ single
    cases f64
    · exact sgnjValue_boxed _ _
    · cases single

theorem rvMinMaxWritten_boxed (mc : EmuConfig δ) (round : FeRound) (isMin : Bool) (lhs rhs : U64) :
    Boxed (rvMinMaxWritten mc round isMin false lhs rhs) := boxed_boxF32 _

/-- FMIN and FMAX depend on the operands as they are read. -/
theorem rvMinMaxWritten_same (round : FeRound)
    (listed : rvInsnFunct3 insn = 0 ∨ rvInsnFunct3 insn = 1)
    (same : SameOperands f64 cpu cpu') (rs1 rs2 : BitVec 5) :
    rvMinMaxWritten mc round (rvInsnFunct3 insn = 0) f64 (cpu'.fregs rs1) (cpu'.fregs rs2) =
      rvMinMaxWritten mc round (rvInsnFunct3 insn = 0) f64 (cpu.fregs rs1) (cpu.fregs rs2) := by
  apply Option.some.inj
  rw [← rvFloatMinMaxResult_written mc round cpu f64 listed,
    ← rvFloatMinMaxResult_written mc round cpu' f64 listed, same.operand, same.operand]

theorem fpSignaling_same (same : SameOperands f64 cpu cpu') (idx : BitVec 5) :
    fpSignaling f64 (cpu'.fregs idx) = fpSignaling f64 (cpu.fregs idx) := by
  rw [← rvIsSnan_operand, ← rvIsSnan_operand, same.operand]

variable (mc insn env) in
theorem rvFloatFused_alike (same : SameOperands f64 cpu cpu') :
    ∃ before value flags,
      rvFloatFused mc cpu insn env f64 =
        (rvFregWrite (rvAccrue cpu before) (rvInsnRd insn) value, flags) ∧
      rvFloatFused mc cpu' insn env f64 =
        (rvFregWrite (rvAccrue cpu' before) (rvInsnRd insn) value, flags) ∧
      ((!f64) = true → Boxed value) := by
  simp only [rvFloatFused, same.operand, rvAccrue_if]
  cases env.soft <;> cases f64
  · exact ⟨_, _, _, rfl, rfl, fun _ => boxed_boxF32 _⟩
  · exact ⟨_, _, _, rfl, rfl, fun single => by cases single⟩
  · exact ⟨_, _, _, rfl, rfl, fun _ => boxed_boxF32 _⟩
  · exact ⟨_, _, _, rfl, rfl, fun single => by cases single⟩

end Operations

/-! ### Words -/

section Words

variable {mc : EmuConfig δ} {m m' : EmuMachine δ} {h : Nat} {insn : U32} {f64 source : Bool}

/-- Two machines with floating point on that a word reads alike. -/
structure SameStart (source : Bool) (m m' : EmuMachine δ) (h : Nat) : Prop where
  operands : SameOperands source (m.cpus h) (m'.cpus h)
  feround : m'.feround h = m.feround h
  on : rvCheckXs (m.cpus h).csr.mstatus rvStatusFsBaseBit = true

theorem SameStart.format (start : SameStart source m m' h)
    (fmt : Rvfd.fmt insn = Rvfd.fmtCode f64) :
    FpFormat (m.cpus h) insn f64 ∧ FpFormat (m'.cpus h) insn f64 := by
  have on' : rvCheckXs (m'.cpus h).csr.mstatus rvStatusFsBaseBit = true := by
    rw [start.operands.csr]
    exact start.on
  exact ⟨⟨start.on, rvFloatFormat_of_fmt fmt⟩, ⟨on', rvFloatFormat_of_fmt fmt⟩⟩

theorem SameStart.env (start : SameStart source m m' h) :
    rvFloatEnv mc (m'.cpus h) insn (m'.feround h) =
      rvFloatEnv mc (m.cpus h) insn (m.feround h) := by
  simp only [rvFloatEnv, applyFrm, rvEffectiveFrm, start.operands.csr, start.feround]

/-- Executing the word does the same on both machines. -/
def ExecutesAlike (mc : EmuConfig δ) (m m' : EmuMachine δ) (h : Nat) (insn : U32)
    (int single : Bool) : Prop :=
  RunsAlike int single (rvInsnRd insn) (m.cpus h) (m'.cpus h)
    ((rvForcefeedInsn mc m h insn).cpus h) ((rvForcefeedInsn mc m' h insn).cpus h)

theorem rvFloatFinish_cpu (m : EmuMachine δ) (h : Nat) (env : FpEnv) (out : RvCpu × FpFlags) :
    (rvFloatFinish m h env out).cpus h =
      rvAccrue out.1 (if env.soft then out.2.soft else out.2.host) := by
  rw [rvFloatFinish, EmuMachine.setCpu_same]

theorem executesAlike_rounded (form : rvOpMajOf insn = some .opFp)
    (start : SameStart source m m' h) (fmt : Rvfd.fmt insn = Rvfd.fmtCode f64)
    (rounded : rvInsnFunct5 insn ∉ [0b10100#5, 0b00100#5, 0b00101#5])
    {compute : FpEnv → RvCpu → RvCpu × FpFlags}
    (computed : ∀ cpu env, rvFloatRounded mc cpu insn env f64 = some (compute env cpu))
    {int single : Bool}
    (alike : ∀ env, ComputesAlike int single (rvInsnRd insn) (m.cpus h) (m'.cpus h) (compute env)) :
    ExecutesAlike mc m m' h insn int single := by
  obtain ⟨format, format'⟩ := start.format fmt
  obtain ⟨value, flags, run, run', boxed⟩ := alike (rvFloatEnv mc (m.cpus h) insn (m.feround h))
  unfold ExecutesAlike
  rw [rvForcefeedInsn_rounded form format rounded (computed _ _),
    rvForcefeedInsn_rounded form format' rounded (computed _ _), start.env, rvFloatFinish_cpu,
    rvFloatFinish_cpu, run, run']
  exact ⟨value, _, rfl, rfl, boxed⟩

theorem executesAlike_fused (form : IsFused insn) (start : SameStart f64 m m' h)
    (fmt : Rvfd.fmt insn = Rvfd.fmtCode f64) : ExecutesAlike mc m m' h insn false (!f64) := by
  obtain ⟨format, format'⟩ := start.format fmt
  obtain ⟨before, value, flags, run, run', boxed⟩ :=
    rvFloatFused_alike mc insn (rvFloatEnv mc (m.cpus h) insn (m.feround h)) start.operands
  unfold ExecutesAlike
  rw [rvForcefeedInsn_fused form format, rvForcefeedInsn_fused form format', start.env,
    rvFloatFinish_cpu, rvFloatFinish_cpu, run, run', rvFregWrite_accrue, rvFregWrite_accrue,
    rvAccrue_accrue, rvAccrue_accrue]
  exact ⟨value, _, rfl, rfl, fun _ => boxed⟩

theorem executesAlike_minMax (word : IsMinMax insn) (start : SameStart f64 m m' h)
    (fmt : Rvfd.fmt insn = Rvfd.fmtCode f64) : ExecutesAlike mc m m' h insn false (!f64) := by
  obtain ⟨format, format'⟩ := start.format fmt
  unfold ExecutesAlike
  rw [word.forcefeed mc format, word.forcefeed mc format', EmuMachine.setCpu_same,
    EmuMachine.setCpu_same,
    fpSignaling_same start.operands, fpSignaling_same start.operands,
    rvMinMaxWritten_same _ word.listed start.operands, start.feround, rvAccrue_if, rvAccrue_if,
    rvFregWrite_accrue, rvFregWrite_accrue]
  refine ⟨_, _, rfl, rfl, fun _ single => ?_⟩
  cases f64
  · exact rvMinMaxWritten_boxed mc _ _ _ _
  · cases single

theorem executesAlike_compare (form : rvOpMajOf insn = some .opFp)
    (op : rvInsnFunct5 insn = 0b10100) (listed : rvInsnFunct3 insn < 3)
    (start : SameStart f64 m m' h) (fmt : Rvfd.fmt insn = Rvfd.fmtCode f64) :
    ExecutesAlike mc m m' h insn true (!f64) := by
  obtain ⟨format, format'⟩ := start.format fmt
  obtain ⟨out, out', run, run', alike⟩ := rvFloatCompare_alike mc start.operands listed
  unfold ExecutesAlike
  rw [rvForcefeedInsn_compare form format op, rvForcefeedInsn_compare form format' op, run, run',
    Option.elim_some, Option.elim_some, EmuMachine.setCpu_same, EmuMachine.setCpu_same]
  exact alike

theorem executesAlike_sgnj (form : rvOpMajOf insn = some .opFp)
    (op : rvInsnFunct5 insn = 0b00100) (listed : rvInsnFunct3 insn < 3)
    (start : SameStart f64 m m' h) (fmt : Rvfd.fmt insn = Rvfd.fmtCode f64) :
    ExecutesAlike mc m m' h insn false (!f64) := by
  obtain ⟨format, format'⟩ := start.format fmt
  obtain ⟨out, out', run, run', alike⟩ := rvFloatSgnj_alike start.operands listed
  unfold ExecutesAlike
  rw [rvForcefeedInsn_sgnj form format op, rvForcefeedInsn_sgnj form format' op, run, run',
    Option.elim_some, Option.elim_some, EmuMachine.setCpu_same, EmuMachine.setCpu_same]
  exact alike

/-- Every OP-FP instruction but FMV.X does the same for operands that are read alike. -/
theorem executesAlike_opFp {op : Rvfd.Op} (form : rvOpMajOf insn = some .opFp)
    (encodes : Rvfd.Encodes insn f64 op) (reads : op ≠ .moveToInt)
    (start : SameStart (op.source f64) m m' h) :
    ExecutesAlike mc m m' h insn op.writesInt (!f64) := by
  have funct5 : rvInsnFunct5 insn = (Rvfd.form false op).funct5 :=
    encodes.funct5.trans (Rvfd.form_funct5 f64 op)
  have funct3 : ∀ value ∈ (Rvfd.form false op).funct3, rvInsnFunct3 insn = value := by
    rw [← Rvfd.form_funct3 f64 op]
    exact encodes.funct3
  have fmt := encodes.fmt
  have rounded : (Rvfd.form false op).funct5 ∉ [0b10100#5, 0b00100#5, 0b00101#5] →
      ∀ compute : FpEnv → RvCpu → RvCpu × FpFlags,
        (∀ cpu env, rvFloatRounded mc cpu insn env f64 = some (compute env cpu)) →
        (∀ env, ComputesAlike op.writesInt (!f64) (rvInsnRd insn) (m.cpus h) (m'.cpus h)
          (compute env)) →
        ExecutesAlike mc m m' h insn op.writesInt (!f64) :=
    fun other _ computed alike =>
      executesAlike_rounded form start fmt (funct5 ▸ other) computed alike
  cases op with
  | add =>
      exact rounded (by decide) (fun env cpu => rvFloatAdd mc cpu insn env f64)
        (fun _ _ => by rw [rvFloatRounded, funct5]; rfl)
        fun _ => rvFloatBinop_alike .add start.operands
  | sub =>
      exact rounded (by decide) (fun env cpu => rvFloatSub mc cpu insn env f64)
        (fun _ _ => by rw [rvFloatRounded, funct5]; rfl)
        fun _ => rvFloatBinop_alike .sub start.operands
  | mul =>
      exact rounded (by decide) (fun env cpu => rvFloatMul mc cpu insn env f64)
        (fun _ _ => by rw [rvFloatRounded, funct5]; rfl)
        fun _ => rvFloatBinop_alike .mul start.operands
  | div =>
      exact rounded (by decide) (fun env cpu => rvFloatDiv mc cpu insn env f64)
        (fun _ _ => by rw [rvFloatRounded, funct5]; rfl)
        fun _ => rvFloatBinop_alike .div start.operands
  | sqrt =>
      exact rounded (by decide) (fun env cpu => rvFloatSqrt mc cpu insn env f64)
        (fun _ _ => by rw [rvFloatRounded, funct5]; rfl)
        fun _ => rvFloatSqrt_alike start.operands
  | sgnj =>
      exact executesAlike_sgnj form funct5 (by rw [funct3 0 rfl]; decide) start fmt
  | sgnjn =>
      exact executesAlike_sgnj form funct5 (by rw [funct3 1 rfl]; decide) start fmt
  | sgnjx =>
      exact executesAlike_sgnj form funct5 (by rw [funct3 2 rfl]; decide) start fmt
  | min => exact executesAlike_minMax ⟨form, funct5, Or.inl (funct3 0 rfl)⟩ start fmt
  | max => exact executesAlike_minMax ⟨form, funct5, Or.inr (funct3 1 rfl)⟩ start fmt
  | convert =>
      have rs2 : rvInsnRs2 insn = (Rvfd.fmtCode !f64).setWidth 5 := encodes.rs2 _ rfl
      have source : decide (rvInsnRs2 insn = 1) = !f64 := by
        rw [rs2]
        cases f64 <;> rfl
      exact rounded (by decide) (fun env cpu => rvFloatFtof mc cpu insn env f64)
        (fun _ _ => by rw [rvFloatRounded, funct5]; rfl)
        fun _ => rvFloatFtof_alike source start.operands
  | eq => exact executesAlike_compare form funct5 (by rw [funct3 2 rfl]; decide) start fmt
  | lt => exact executesAlike_compare form funct5 (by rw [funct3 1 rfl]; decide) start fmt
  | le => exact executesAlike_compare form funct5 (by rw [funct3 0 rfl]; decide) start fmt
  | toInt type =>
      exact rounded (show (Rvfd.form false (.toInt .w)).funct5 ∉ _ by decide)
        (fun env cpu => rvFloatFtox mc cpu insn env f64)
        (fun _ _ => by rw [rvFloatRounded, funct5]; rfl)
        fun _ => rvFloatFtox_alike start.operands
  | fromInt type =>
      exact rounded (show (Rvfd.form false (.fromInt .w)).funct5 ∉ _ by decide)
        (fun env cpu => rvFloatXtof mc cpu insn env f64)
        (fun _ _ => by rw [rvFloatRounded, funct5]; rfl)
        fun _ => rvFloatXtof_alike start.operands.xregs
  | moveToInt => exact absurd rfl reads
  | classify =>
      exact rounded (by decide) (fun _ cpu => rvFloatMvxfFclass mc cpu insn f64)
        (fun _ _ => by rw [rvFloatRounded, funct5]; rfl)
        fun _ => rvFloatMvxfFclass_alike (funct3 1 rfl) start.operands
  | moveFromInt =>
      exact rounded (by decide) (fun _ cpu => rvFloatMvfx cpu insn f64)
        (fun _ _ => by rw [rvFloatRounded, funct5]; rfl)
        fun _ => rvFloatMvfx_alike start.operands.xregs

/-! ### Single precision -/

/-- The words with a single-precision destination. -/
inductive SingleDest (insn : U32) : Prop
  | flw (form : rvOpMajOf insn = some .loadFp) (width : rvInsnFunct3 insn = 2)
  | opFp (op : Rvfd.Op) (form : rvOpMajOf insn = some .opFp)
      (encodes : Rvfd.Encodes insn false op) (float : op.writesInt = false)
  | fused (form : IsFused insn) (fmt : Rvfd.fmt insn = Rvfd.fmtCode false)

/-- The words that compute with single-precision operands, and whether they write an
integer register. -/
inductive SingleSource (insn : U32) : Bool → Prop
  | opFp (double : Bool) (op : Rvfd.Op) (form : rvOpMajOf insn = some .opFp)
      (encodes : Rvfd.Encodes insn double op) (source : op.source double = false)
      (computes : op ≠ .moveToInt) : SingleSource insn op.writesInt
  | fused (form : IsFused insn) (fmt : Rvfd.fmt insn = Rvfd.fmtCode false) :
      SingleSource insn false

/-- The same destination register and the same flags. -/
structure SameResult (int : Bool) (rd : BitVec 5) (out out' : RvCpu) : Prop where
  rd : if int then rvXregRead out' rd = rvXregRead out rd else rvFregRead out' rd = rvFregRead out rd
  flags : out'.csr.fcsr = out.csr.fcsr

def EmuMachine.writeFreg (m : EmuMachine δ) (h : Nat) (r : BitVec 5) (value : U64) :
    EmuMachine δ := m.setCpu h (rvFregWrite (m.cpus h) r value)

/-- A word with floating point off is illegal. -/
theorem rvForcefeedInsn_fpOff (word : rvOpMajOf insn = some .opFp ∨ IsFused insn)
    (off : rvCheckXs (m.cpus h).csr.mstatus rvStatusFsBaseBit = false) :
    rvForcefeedInsn mc m h insn = rvDoIillegal mc m h insn := by
  rcases word with form | form
  · rw [rvForcefeedInsn_opFp form, rvFloatOpFp]
    simp only [off, Bool.not_false, if_true]
  · rw [rvForcefeedInsn_fmadd form, rvFloatFmadd]
    simp only [off, Bool.not_false, if_true]

theorem raisesException_illegal (raised : ∀ hooks, rvForcefeedInsn (mc.hooked hooks) m h insn =
      rvDoIillegal (mc.hooked hooks) m' h insn) : RaisesException mc m h insn :=
  ⟨m', _, RvCause.isInterrupt .iillegal _ _, raised⟩

theorem raisesException_memTrap {r : RvMemResult} {mode : RvAccess} {addr : U64}
    (raised : ∀ hooks, rvForcefeedInsn (mc.hooked hooks) m h insn =
      rvMemTrap (mc.hooked hooks) m' h r mode addr) : RaisesException mc m h insn :=
  ⟨m', _, RvCause.isInterrupt (rvMemCause r mode) _ _, raised⟩

theorem on_of_completes (word : rvOpMajOf insn = some .opFp ∨ IsFused insn)
    (completes : ¬RaisesException mc m h insn) :
    rvCheckXs (m.cpus h).csr.mstatus rvStatusFsBaseBit = true := by
  by_contra off
  exact completes (raisesException_illegal fun hooks =>
    rvForcefeedInsn_fpOff word (Bool.not_eq_true _ ▸ off))

theorem SameStart.refl (source : Bool)
    (on : rvCheckXs (m.cpus h).csr.mstatus rvStatusFsBaseBit = true) : SameStart source m m h :=
  ⟨⟨fun _ => rfl, rfl, rfl⟩, rfl, on⟩

theorem RunsAlike.boxed {rd : BitVec 5} {cpu cpu' out out' : RvCpu}
    (alike : RunsAlike false true rd cpu cpu' out out') : Boxed (out.fregs rd) := by
  obtain ⟨value, flags, rfl, _, boxed⟩ := alike
  exact (rvFregWrite_same cpu rd value).symm ▸ boxed rfl rfl

/-- FLW fills the upper half with ones. -/
theorem rvBaseLoad_boxed (form : rvOpMajOf insn = some .loadFp) (width : rvInsnFunct3 insn = 2)
    (completes : ¬RaisesException mc m h insn) :
    Boxed (((rvForcefeedInsn mc m h insn).cpus h).fregs (rvInsnRd insn)) := by
  have load : ∀ mc : EmuConfig δ, rvForcefeedInsn mc m h insn = rvBaseLoad mc m h insn := by
    intro mc
    simp only [rvForcefeedInsn, form]
  have float := (opMaj_float form).2 (Or.inl rfl)
  by_cases illegal : rvFpAccessIllegal (m.cpus h) insn = true
  · have raised : ∀ hooks, rvForcefeedInsn (mc.hooked hooks) m h insn =
        rvDoIillegal (mc.hooked hooks) m h insn := by
      intro hooks
      rw [load, rvBaseLoad, if_pos illegal]
    exact absurd (raisesException_illegal raised) completes
  have sized : rvLoadSizeExp 2 = some 2 := rfl
  generalize loaded : rvAccessVirt mc m h (m.xreg h (rvInsnRs1 insn) + rvInsnImm12 insn) 0 2 .load =
    access
  by_cases failed : access.res ≠ .ok
  · have trapped : ∀ hooks, rvForcefeedInsn (mc.hooked hooks) m h insn =
        rvMemTrap (mc.hooked hooks) access.machine h access.res .load
          (m.xreg h (rvInsnRs1 insn) + rvInsnImm12 insn) := by
      intro hooks
      rw [load, rvBaseLoad]
      simp only [illegal, Bool.false_eq_true, if_false, width, sized, rvAccessVirt_hooked, loaded,
        if_pos failed]
    exact absurd (raisesException_memTrap trapped) completes
  · rw [load, rvBaseLoad]
    simp only [illegal, Bool.false_eq_true, if_false, width, sized, loaded, if_neg failed, float,
      if_true, EmuMachine.setCpu_same, rvFregWrite_same]
    apply boxed_iff.mpr
    intro i high inside
    have upper : ∀ i, 32 ≤ i → i < 64 → (0xffffffff00000000 : U64).getLsbD i = true := by decide
    rw [BitVec.getLsbD_or, upper i high inside, Bool.or_true]

theorem SingleDest.boxed (dest : SingleDest insn) (completes : ¬RaisesException mc m h insn) :
    Boxed (((rvForcefeedInsn mc m h insn).cpus h).fregs (rvInsnRd insn)) := by
  cases dest with
  | flw form width => exact rvBaseLoad_boxed form width completes
  | opFp op form encodes float =>
      have alike : ExecutesAlike mc m m h insn op.writesInt true :=
        executesAlike_opFp form encodes (by rintro rfl; cases float)
          (SameStart.refl (op.source false) (on_of_completes (Or.inl form) completes))
      rw [float] at alike
      exact RunsAlike.boxed alike
  | fused form fmt =>
      exact RunsAlike.boxed (executesAlike_fused form
        (SameStart.refl false (on_of_completes (Or.inr form) completes)) fmt)

theorem unboxF32_unboxed {value : U64} (unboxed : ¬Boxed value) :
    unboxF32 value = rvCanonicalNanF32 := if_neg unboxed

/-- A register that is not boxed is read as one that holds the canonical NaN. -/
theorem sameStart_unboxed (on : rvCheckXs (m.cpus h).csr.mstatus rvStatusFsBaseBit = true)
    (r : BitVec 5) {value : U64} (unboxed : ¬Boxed value) :
    SameStart false (m.writeFreg h r value) (m.writeFreg h r (boxF32 rvCanonicalNanF32)) h := by
  have written : ∀ value, (m.writeFreg h r value).cpus h = rvFregWrite (m.cpus h) r value :=
    fun _ => EmuMachine.setCpu_same _ _ _
  refine ⟨?_, rfl, ?_⟩
  · rw [written, written]
    refine ⟨fun idx => ?_, rfl, rfl⟩
    rw [rvFregReadAs_f32, rvFregReadAs_f32]
    by_cases same : idx = r
    · rw [same, rvFregWrite_same, rvFregWrite_same, unboxF32_boxF32, unboxF32_unboxed unboxed]
    · simp only [rvFregWrite, Function.update_of_ne same]
  · rw [written]
    exact on

theorem RunsAlike.sameResult {int single : Bool} {rd : BitVec 5} {cpu cpu' out out' : RvCpu}
    (alike : RunsAlike int single rd cpu cpu' out out') (xregs : cpu'.xregs = cpu.xregs)
    (csr : cpu'.csr = cpu.csr) : SameResult int rd out out' := by
  obtain ⟨value, flags, rfl, rfl, _⟩ := alike
  cases int
  · refine ⟨?_, ?_⟩
    · exact (rvFregWrite_same cpu' rd value).trans (rvFregWrite_same cpu rd value).symm
    · exact congrArg (fun csr : RvCsrState => csr.fcsr ||| (flags &&& rvFflagsMask)) csr
  · refine ⟨?_, ?_⟩
    · simp only [if_true, rvXregRead, rvAccrue, rvRdWrite, rvXregWrite, RvCpu.withCsr]
      split <;> simp only [xregs]
    · simp only [rvAccrue, RvCpu.withCsr, rvRdWrite, if_true, rvXregWrite_csr, csr]

theorem SingleSource.same {int : Bool} (source : SingleSource insn int)
    (on : rvCheckXs (m.cpus h).csr.mstatus rvStatusFsBaseBit = true)
    (r : BitVec 5) {value : U64} (unboxed : ¬Boxed value) :
    SameResult int (rvInsnRd insn)
      ((rvForcefeedInsn mc (m.writeFreg h r value) h insn).cpus h)
      ((rvForcefeedInsn mc (m.writeFreg h r (boxF32 rvCanonicalNanF32)) h insn).cpus h) := by
  have start := sameStart_unboxed on r unboxed
  cases source with
  | opFp double op form encodes source computes =>
      exact (executesAlike_opFp form encodes computes (source ▸ start)).sameResult
        start.operands.xregs start.operands.csr
  | fused form fmt =>
      exact (executesAlike_fused form start fmt).sameResult start.operands.xregs start.operands.csr

end Words

/-- Single-precision results are boxed, and a single-precision operand that is not boxed
is computed with as the canonical NaN. -/
theorem nanBoxing (mc : EmuConfig δ) (m : EmuMachine δ) (h : Nat) (insn : U32) :
    (SingleDest insn → ¬RaisesException mc m h insn →
      Boxed (((rvForcefeedInsn mc m h insn).cpus h).fregs (rvInsnRd insn))) ∧
    ∀ int, SingleSource insn int → rvCheckXs (m.cpus h).csr.mstatus rvStatusFsBaseBit = true →
      ∀ (r : BitVec 5) (value : U64), ¬Boxed value → SameResult int (rvInsnRd insn)
        ((rvForcefeedInsn mc (m.writeFreg h r value) h insn).cpus h)
        ((rvForcefeedInsn mc (m.writeFreg h r (boxF32 rvCanonicalNanF32)) h insn).cpus h) :=
  ⟨fun dest completes => dest.boxed completes,
    fun _ source on r _ unboxed => source.same on r unboxed⟩

/-- FADD.S, whose second operand is not boxed. -/
theorem nanBoxing_add :
    Boxed (((rvForcefeedInsn orderingConfig (minMaxMachine fun _ => 0) 0 0x00208053).cpus 0).fregs
      0) ∧
    SameResult false 0
      ((rvForcefeedInsn orderingConfig ((minMaxMachine fun _ => 0).writeFreg 0 2 0) 0
        0x00208053).cpus 0)
      ((rvForcefeedInsn orderingConfig ((minMaxMachine fun _ => 0).writeFreg 0 2
        (boxF32 rvCanonicalNanF32)) 0 0x00208053).cpus 0) := by
  have boxing := nanBoxing orderingConfig (minMaxMachine fun _ => 0) 0 0x00208053
  have add : Rvfd.Encodes 0x00208053 false .add := by decide
  refine ⟨boxing.1 (.opFp .add (by decide) add rfl) fun raises => ?_,
    boxing.2 false (.opFp false .add (by decide) add rfl (by decide)) (by decide +kernel) 2 0
      (by decide)⟩
  have same : ∀ hooks, rvForcefeedInsn (orderingConfig.hooked hooks) (minMaxMachine fun _ => 0) 0
      0x00208053 = rvForcefeedInsn orderingConfig (minMaxMachine fun _ => 0) 0 0x00208053 :=
    fun _ => rfl
  exact raises.not_next same

end Riscmulator
