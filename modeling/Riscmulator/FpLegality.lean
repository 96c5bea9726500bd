import Riscmulator.FpBoxing

/-! Which OP-FP and fused words are rejected, against the encodings of RV64FD, and the
rounding mode that the others compute with. -/

namespace Riscmulator

variable {δ : Type}

/-! ### Specification -/

/-- The `frm` field of `fcsr`. -/
def rvFcsrFrm (cpu : RvCpu) : BitVec 3 := (cpu.csr.fcsr >>> rvFcsrFrmBaseBit).setWidth 3

/-- An OP-FP word or a fused multiply-add. -/
def IsFpWord (insn : U32) : Prop := rvOpMajOf insn = some .opFp ∨ IsFused insn

/-- The word is an RV64FD instruction with a rounding mode that is not reserved. -/
def FpLegal (cpu : RvCpu) (insn : U32) : Prop :=
  (rvOpMajOf insn = some .opFp ∧ ∃ double op, Rvfd.Legal insn (rvFcsrFrm cpu) double op) ∨
    (IsFused insn ∧ ∃ double, Rvfd.FusedLegal insn (rvFcsrFrm cpu) double)

/-- The instruction may round. -/
def FpMayRound (insn : U32) : Prop :=
  (rvOpMajOf insn = some .opFp ∧ ∃ double op, Rvfd.Encodes insn double op ∧ op.mayRound double) ∨
    IsFused insn

/-- The registers and `fcsr` are the same. -/
structure FpKept (cpu cpu' : RvCpu) : Prop where
  xregs : cpu'.xregs = cpu.xregs
  fregs : cpu'.fregs = cpu.fregs
  fcsr : cpu'.csr.fcsr = cpu.csr.fcsr

/-- Whatever the hooks are, executing the word is an illegal-instruction exception, with
the registers and `fcsr` of the start. -/
def RejectsKept (mc : EmuConfig δ) (m : EmuMachine δ) (h : Nat) (insn : U32) : Prop :=
  ∃ m', FpKept (m.cpus h) (m'.cpus h) ∧ ∀ hooks,
    rvForcefeedInsn (mc.hooked hooks) m h insn = rvDoIillegal (mc.hooked hooks) m' h insn

/-- The rounding direction of the host for a mode; it has none for RMM. -/
def hostRound (mode : BitVec 3) : Option FeRound :=
  match mode with
  | 0 => some .tonearest
  | 1 => some .towardzero
  | 2 => some .downward
  | 3 => some .upward
  | _ => none

def softRoundOf (mode : BitVec 3) : Option SoftfloatRound :=
  match mode with
  | 0 => some .nearEven
  | 1 => some .minMag
  | 2 => some .min
  | 3 => some .max
  | 4 => some .nearMaxMag
  | _ => none

/-- Whoever computes is given this mode. -/
def GivesMode (env : FpEnv) (mode : BitVec 3) : Prop :=
  if env.soft then softRoundOf mode = some env.softRound else hostRound mode = some env.round

/-- The machine after the word is that of its operation in this environment. -/
def RunsWith (mc : EmuConfig δ) (m : EmuMachine δ) (h : Nat) (insn : U32) (env : FpEnv) : Prop :=
  ∃ f64 out,
    (rvFloatRounded mc (m.cpus h) insn env f64 = some out ∨
      (IsFused insn ∧ out = rvFloatFused mc (m.cpus h) insn env f64)) ∧
    rvForcefeedInsn mc m h insn = rvFloatFinish (m.setFeround h env.round) h env out

/-- Words that are not legal are rejected with nothing changed, legal ones are not, and
those that may round do so in their effective mode. -/
structure FpStrict (mc : EmuConfig δ) (m : EmuMachine δ) (h : Nat) (insn : U32) : Prop where
  rejects : ¬FpLegal (m.cpus h) insn → RejectsKept mc m h insn
  accepts : FpLegal (m.cpus h) insn → ¬RaisesIllegal mc m h insn
  mode : FpLegal (m.cpus h) insn → FpMayRound insn →
    RunsWith mc m h insn (rvFloatEnv mc (m.cpus h) insn (m.feround h)) ∧
      GivesMode (rvFloatEnv mc (m.cpus h) insn (m.feround h))
        (Rvfd.effectiveMode insn (rvFcsrFrm (m.cpus h)))

/-! ### What the code tests -/

/-- The `funct5` values that the code knows. -/
def rvFloatFunct5s : List (BitVec 5) :=
  [0b00000, 0b00001, 0b00010, 0b00011, 0b01011, 0b01000, 0b11010, 0b11000, 0b11100, 0b11110,
   0b10100, 0b00100, 0b00101]

/-- The `funct3` values that the code accepts for a `funct5`. -/
def rvFloatFunct3Ok (funct5 : BitVec 5) (funct3 : BitVec 3) : Bool :=
  if funct5 = 0b00101 then funct3 ≤ 1
  else if funct5 = 0b10100 ∨ funct5 = 0b00100 then funct3 < 3
  else true

/-- The code rejects the word before it changes anything. -/
def FpTested (cpu : RvCpu) (insn : U32) : Prop :=
  (∀ double, Rvfd.fmt insn ≠ Rvfd.fmtCode double) ∨
    (rvOpMajOf insn = some .opFp ∧
      (rvInsnFunct5 insn ∉ rvFloatFunct5s ∨
        (rvFloatFunct3Ok (rvInsnFunct5 insn) (rvInsnFunct3 insn) = false ∧
          ¬FlagsReserved cpu insn)))

/-- The effective mode is not RMM, or is RMM in the word itself with SoftFloat enabled. -/
def FpModeKnown (mc : EmuConfig δ) (cpu : RvCpu) (insn : U32) : Prop :=
  Rvfd.effectiveMode insn (rvFcsrFrm cpu) ≠ 4 ∨
    (mc.rvFloatExactMath = true ∧ rvInsnFunct3 insn = 4)

section Tests

variable {insn : U32} {cpu : RvCpu} {f64 : Bool}

theorem encodes_tested {op : Rvfd.Op} (encodes : Rvfd.Encodes insn f64 op) :
    rvInsnFunct5 insn ∈ rvFloatFunct5s ∧
      rvFloatFunct3Ok (rvInsnFunct5 insn) (rvInsnFunct3 insn) = true := by
  have funct5 : rvInsnFunct5 insn = (Rvfd.form false op).funct5 :=
    encodes.funct5.trans (Rvfd.form_funct5 f64 op)
  have funct3 : ∀ value ∈ (Rvfd.form false op).funct3, rvInsnFunct3 insn = value := by
    rw [← Rvfd.form_funct3 f64 op]
    exact encodes.funct3
  rw [funct5]
  cases op with
  | sgnj | min | le | moveToInt | moveFromInt => exact ⟨by decide, by rw [funct3 0 rfl]; decide⟩
  | sgnjn | max | lt | classify => exact ⟨by decide, by rw [funct3 1 rfl]; decide⟩
  | sgnjx | eq => exact ⟨by decide, by rw [funct3 2 rfl]; decide⟩
  | add | sub | mul | div | sqrt | convert => exact ⟨by decide, rfl⟩
  | toInt type => exact ⟨show (0b11000 : BitVec 5) ∈ rvFloatFunct5s by decide, rfl⟩
  | fromInt type => exact ⟨show (0b11010 : BitVec 5) ∈ rvFloatFunct5s by decide, rfl⟩

theorem not_fused_of_opFp (form : rvOpMajOf insn = some .opFp) : ¬IsFused insn := by
  intro fused
  rw [IsFused, form] at fused
  revert fused
  decide

end Tests

/-! ### Words that the code rejects -/

section Dispatch

variable {mc : EmuConfig δ} {m : EmuMachine δ} {cpu : RvCpu} {h : Nat} {insn : U32} {f64 : Bool}

theorem FpKept.refl (cpu : RvCpu) : FpKept cpu cpu := ⟨rfl, rfl, rfl⟩

theorem rejectsKept_at_once (rejects : ∀ mc : EmuConfig δ,
      rvForcefeedInsn mc m h insn = rvDoIillegal mc m h insn) : RejectsKept mc m h insn :=
  ⟨m, FpKept.refl _, fun hooks => rejects (mc.hooked hooks)⟩

theorem rvForcefeedInsn_unsupported (word : IsFpWord insn)
    (fmt : ∀ double, Rvfd.fmt insn ≠ Rvfd.fmtCode double) (mc : EmuConfig δ) :
    rvForcefeedInsn mc m h insn = rvDoIillegal mc m h insn := by
  have unsupported := rvFloatFormat_none.mpr fmt
  rcases word with form | form
  · rw [rvForcefeedInsn_opFp form]
    simp only [rvFloatOpFp, unsupported, ite_self]
  · rw [rvForcefeedInsn_fmadd form]
    simp only [rvFloatFmadd, unsupported, ite_self]

/-- The operations with a rounding mode and the moves, by their `funct5`. -/
theorem rvFloatRounded_none {env : FpEnv} :
    rvFloatRounded mc cpu insn env f64 = none ↔ rvInsnFunct5 insn ∉ rvFloatFunct5s.take 10 := by
  have known : ∀ funct5 : BitVec 5, funct5 ∈ rvFloatFunct5s.take 10 → funct5 = 0b00000 ∨
      funct5 = 0b00001 ∨ funct5 = 0b00010 ∨ funct5 = 0b00011 ∨ funct5 = 0b01011 ∨
      funct5 = 0b01000 ∨ funct5 = 0b11010 ∨ funct5 = 0b11000 ∨ funct5 = 0b11100 ∨
      funct5 = 0b11110 := by decide
  constructor
  · intro rejected member
    unfold rvFloatRounded at rejected
    rcases known _ member with op | op | op | op | op | op | op | op | op | op <;>
      rw [op] at rejected <;> cases rejected
  · intro unknown
    unfold rvFloatRounded
    generalize rvInsnFunct5 insn = funct5 at unknown
    split
    · exact absurd (by decide) unknown
    · exact absurd (by decide) unknown
    · exact absurd (by decide) unknown
    · exact absurd (by decide) unknown
    · exact absurd (by decide) unknown
    · exact absurd (by decide) unknown
    · exact absurd (by decide) unknown
    · exact absurd (by decide) unknown
    · exact absurd (by decide) unknown
    · exact absurd (by decide) unknown
    · rfl

theorem rvFloatCompare_none : rvFloatCompare mc cpu insn f64 = none ↔ ¬rvInsnFunct3 insn < 3 := by
  constructor
  · intro rejected listed
    obtain ⟨_, _, run, _⟩ := rvFloatCompare_alike mc
      (⟨fun _ => rfl, rfl, rfl⟩ : SameOperands f64 cpu cpu) listed
    rw [rejected] at run
    cases run
  · intro reserved
    cases result : rvFloatCompare mc cpu insn f64 with
    | none => rfl
    | some out => exact absurd (rvFloatCompare_listed result) reserved

theorem rvFloatSgnj_none : rvFloatSgnj cpu insn f64 = none ↔ ¬rvInsnFunct3 insn < 3 := by
  constructor
  · intro rejected listed
    rw [rvFloatSgnj_eq cpu f64 listed] at rejected
    cases rejected
  · intro reserved
    cases result : rvFloatSgnj cpu insn f64 with
    | none => rfl
    | some out => exact absurd (rvFloatSgnj_listed result) reserved

/-- The word comes to one machine, whatever the hooks are. -/
def HooksUnseen (mc : EmuConfig δ) (m : EmuMachine δ) (h : Nat) (insn : U32) : Prop :=
  ∃ next, ∀ hooks, rvForcefeedInsn (mc.hooked hooks) m h insn = next

theorem HooksUnseen.not_illegal (completes : HooksUnseen mc m h insn) :
    ¬RaisesIllegal mc m h insn := by
  rintro ⟨m', raised⟩
  obtain ⟨next, same⟩ := completes
  have raises : RaisesException mc m h insn := raisesException_illegal raised
  exact raises.not_next same

/-- What becomes of an OP-FP word of a supported format. -/
inductive OpFpOutcome (mc : EmuConfig δ) (m : EmuMachine δ) (h : Nat) (insn : U32) : Prop
  | unknown (op : rvInsnFunct5 insn ∉ rvFloatFunct5s) (rejects : RejectsKept mc m h insn)
  | reserved (op : rvInsnFunct5 insn ∈ rvFloatFunct5s)
      (funct3 : rvFloatFunct3Ok (rvInsnFunct5 insn) (rvInsnFunct3 insn) = false)
      (rejects : RejectsKept mc m h insn ↔ ¬FlagsReserved (m.cpus h) insn)
  | completes (op : rvInsnFunct5 insn ∈ rvFloatFunct5s)
      (funct3 : rvFloatFunct3Ok (rvInsnFunct5 insn) (rvInsnFunct3 insn) = true)
      (completes : HooksUnseen mc m h insn)

theorem opFp_compare (mc : EmuConfig δ) (form : rvOpMajOf insn = some .opFp)
    (format : FpFormat (m.cpus h) insn f64) (op : rvInsnFunct5 insn = 0b10100) :
    OpFpOutcome mc m h insn := by
  have known : rvInsnFunct5 insn ∈ rvFloatFunct5s := by
    rw [op]
    decide
  have ok : rvFloatFunct3Ok (rvInsnFunct5 insn) (rvInsnFunct3 insn) =
      decide (rvInsnFunct3 insn < 3) := by
    rw [op]
    rfl
  cases result : rvFloatCompare mc (m.cpus h) insn f64 with
  | none =>
      refine .reserved known (ok.trans (decide_eq_false (rvFloatCompare_none.mp result)))
        (iff_of_true (rejectsKept_at_once fun mc => ?_) fun flags => ?_)
      · rw [rvForcefeedInsn_compare form format op,
          rvFloatCompare_none.mpr (rvFloatCompare_none.mp result), Option.elim_none]
      · have other := flags.op
        rw [op] at other
        revert other
        decide
  | some out =>
      refine .completes known (ok.trans (decide_eq_true (rvFloatCompare_listed result)))
        ⟨m.setCpu h out, fun hooks => ?_⟩
      have hooked : rvFloatCompare (mc.hooked hooks) (m.cpus h) insn f64 = some out := result
      rw [rvForcefeedInsn_compare form format op, hooked, Option.elim_some]

theorem opFp_sgnj (mc : EmuConfig δ) (form : rvOpMajOf insn = some .opFp)
    (format : FpFormat (m.cpus h) insn f64) (op : rvInsnFunct5 insn = 0b00100) :
    OpFpOutcome mc m h insn := by
  have known : rvInsnFunct5 insn ∈ rvFloatFunct5s := by
    rw [op]
    decide
  have ok : rvFloatFunct3Ok (rvInsnFunct5 insn) (rvInsnFunct3 insn) =
      decide (rvInsnFunct3 insn < 3) := by
    rw [op]
    rfl
  cases result : rvFloatSgnj (m.cpus h) insn f64 with
  | none =>
      refine .reserved known (ok.trans (decide_eq_false (rvFloatSgnj_none.mp result)))
        (iff_of_true (rejectsKept_at_once fun mc => ?_) fun flags => ?_)
      · rw [rvForcefeedInsn_sgnj form format op, result, Option.elim_none]
      · have other := flags.op
        rw [op] at other
        revert other
        decide
  | some out =>
      refine .completes known (ok.trans (decide_eq_true (rvFloatSgnj_listed result)))
        ⟨m.setCpu h out, fun hooks => ?_⟩
      rw [rvForcefeedInsn_sgnj form format op, result, Option.elim_some]

/-- An illegal FMIN or FMAX keeps the flags unless it sets one for a signaling operand. -/
theorem opFp_minMax (mc : EmuConfig δ) (form : rvOpMajOf insn = some .opFp)
    (format : FpFormat (m.cpus h) insn f64) (op : rvInsnFunct5 insn = 0b00101) :
    OpFpOutcome mc m h insn := by
  have known : rvInsnFunct5 insn ∈ rvFloatFunct5s := by
    rw [op]
    decide
  have ok : rvFloatFunct3Ok (rvInsnFunct5 insn) (rvInsnFunct3 insn) =
      decide (rvInsnFunct3 insn ≤ 1) := by
    rw [op]
    rfl
  have run : ∀ hooks, rvForcefeedInsn (mc.hooked hooks) m h insn =
      let out := rvFloatMinMax mc (m.cpus h) (m.feround h) insn f64
      if out.2 then rvDoIillegal (mc.hooked hooks) (m.setCpu h out.1) h insn
      else m.setCpu h out.1 := by
    intro hooks
    rw [rvForcefeedInsn_opFp form, rvFloatOpFp_minMax format op]
    rfl
  by_cases illegal : (rvFloatMinMax mc (m.cpus h) (m.feround h) insn f64).2 = true
  · have above := rvFloatMinMax_illegal_iff.mp illegal
    have unlisted := ok.trans (decide_eq_false (BitVec.not_le.mpr above))
    refine .reserved known unlisted ⟨?_, fun flags => ?_⟩
    · rintro ⟨m', kept, rejects⟩ flags
      exact flags.not_kept (RvCause.isInterrupt .iillegal _ _) rejects kept.fcsr
    · refine ⟨m.setCpu h (rvFloatMinMax mc (m.cpus h) (m.feround h) insn f64).1, ?_,
        fun hooks => ?_⟩
      · rw [EmuMachine.setCpu_same]
        obtain ⟨xregs, fregs⟩ := rvFloatMinMax_kept (m.cpus h) illegal
        exact ⟨xregs, fregs, (rvFloatMinMax_fcsr_iff form format op illegal).mpr flags⟩
      · simp only [run hooks, illegal, if_true]
  · have below : ¬rvInsnFunct3 insn > 1 := mt rvFloatMinMax_illegal_iff.mpr illegal
    refine .completes known (ok.trans (decide_eq_true (BitVec.not_lt.mp below)))
      ⟨m.setCpu h (rvFloatMinMax mc (m.cpus h) (m.feround h) insn f64).1, fun hooks => ?_⟩
    simp only [run hooks, illegal, if_false, Bool.false_eq_true]

theorem opFp_rounded (mc : EmuConfig δ) (form : rvOpMajOf insn = some .opFp)
    (format : FpFormat (m.cpus h) insn f64) (compare : rvInsnFunct5 insn ≠ 0b10100)
    (sgnj : rvInsnFunct5 insn ≠ 0b00100) (minMax : rvInsnFunct5 insn ≠ 0b00101) :
    OpFpOutcome mc m h insn := by
  have table : ∀ funct5 : BitVec 5, funct5 ≠ 0b10100 → funct5 ≠ 0b00100 → funct5 ≠ 0b00101 →
      (funct5 ∈ rvFloatFunct5s ↔ funct5 ∈ rvFloatFunct5s.take 10) := by decide
  have known := table _ compare sgnj minMax
  generalize chosen : rvFloatEnv mc (m.cpus h) insn (m.feround h) = env
  have run : ∀ hooks, rvForcefeedInsn (mc.hooked hooks) m h insn =
      (rvFloatRounded mc (m.cpus h) insn env f64).elim
        (rvDoIillegal (mc.hooked hooks) (m.setFeround h env.round) h insn)
        (rvFloatFinish (m.setFeround h env.round) h env) := by
    intro hooks
    rw [rvForcefeedInsn_opFp form]
    exact rvFloatOpFp_rounded (mc.hooked hooks) format compare sgnj minMax chosen
  cases result : rvFloatRounded mc (m.cpus h) insn env f64 with
  | none =>
      refine .unknown (mt known.mp (rvFloatRounded_none.mp result)) ⟨m.setFeround h env.round,
        FpKept.refl _, fun hooks => ?_⟩
      rw [run hooks, result, Option.elim_none]
  | some out =>
      have listed : rvInsnFunct5 insn ∈ rvFloatFunct5s := by
        apply known.mpr
        by_contra unknown
        rw [rvFloatRounded_none.mpr unknown] at result
        cases result
      refine .completes listed ?_ ⟨_, fun hooks => (run hooks).trans (by
        rw [result, Option.elim_some])⟩
      unfold rvFloatFunct3Ok
      rw [if_neg minMax, if_neg (not_or.mpr ⟨compare, sgnj⟩)]

theorem opFp_outcome (mc : EmuConfig δ) (form : rvOpMajOf insn = some .opFp)
    (format : FpFormat (m.cpus h) insn f64) : OpFpOutcome mc m h insn := by
  by_cases compare : rvInsnFunct5 insn = 0b10100
  · exact opFp_compare mc form format compare
  by_cases sgnj : rvInsnFunct5 insn = 0b00100
  · exact opFp_sgnj mc form format sgnj
  by_cases minMax : rvInsnFunct5 insn = 0b00101
  · exact opFp_minMax mc form format minMax
  · exact opFp_rounded mc form format compare sgnj minMax

theorem fused_completes (mc : EmuConfig δ) (form : IsFused insn)
    (format : FpFormat (m.cpus h) insn f64) : HooksUnseen mc m h insn :=
  ⟨rvFloatFinish (m.setFeround h (rvFloatEnv mc (m.cpus h) insn (m.feround h)).round) h
      (rvFloatEnv mc (m.cpus h) insn (m.feround h))
      (rvFloatFused mc (m.cpus h) insn (rvFloatEnv mc (m.cpus h) insn (m.feround h)) f64),
    fun _ => rvForcefeedInsn_fused form format⟩

/-! ### Rejection -/

theorem exists_format (on : rvCheckXs (m.cpus h).csr.mstatus rvStatusFsBaseBit = true)
    (supported : ¬∀ double, Rvfd.fmt insn ≠ Rvfd.fmtCode double) :
    ∃ double, Rvfd.fmt insn = Rvfd.fmtCode double ∧ FpFormat (m.cpus h) insn double := by
  obtain ⟨double, fmt⟩ := not_forall.mp supported
  exact ⟨double, not_not.mp fmt, on, rvFloatFormat_of_fmt (not_not.mp fmt)⟩

/-- With floating point on, the code rejects the words that it tests for, and no others,
with nothing changed. -/
theorem rejectsKept_iff (mc : EmuConfig δ) (word : IsFpWord insn)
    (on : rvCheckXs (m.cpus h).csr.mstatus rvStatusFsBaseBit = true) :
    RejectsKept mc m h insn ↔ FpTested (m.cpus h) insn := by
  by_cases fmt : ∀ double, Rvfd.fmt insn ≠ Rvfd.fmtCode double
  · exact iff_of_true (rejectsKept_at_once (rvForcefeedInsn_unsupported word fmt)) (Or.inl fmt)
  obtain ⟨double, same, format⟩ := exists_format on fmt
  have accepted : HooksUnseen mc m h insn → ¬RejectsKept mc m h insn := by
    rintro completes ⟨m', _, rejects⟩
    exact completes.not_illegal ⟨m', rejects⟩
  rcases word with form | form
  · cases opFp_outcome mc form format with
    | unknown op rejects => exact iff_of_true rejects (Or.inr ⟨form, Or.inl op⟩)
    | reserved op funct3 rejects =>
        rw [rejects]
        constructor
        · intro flags
          exact Or.inr ⟨form, Or.inr ⟨funct3, flags⟩⟩
        · rintro (other | ⟨_, unknown | ⟨_, flags⟩⟩)
          · exact absurd other fmt
          · exact absurd op unknown
          · exact flags
    | completes op funct3 completes =>
        refine iff_of_false (accepted completes) ?_
        rintro (other | ⟨_, unknown | ⟨bad, _⟩⟩)
        · exact fmt other
        · exact unknown op
        · rw [funct3] at bad
          cases bad
  · refine iff_of_false (accepted (fused_completes mc form format)) ?_
    rintro (other | ⟨opFp, _⟩)
    · exact fmt other
    · exact not_fused_of_opFp opFp form

theorem FpLegal.completes (legal : FpLegal (m.cpus h) insn) (mc : EmuConfig δ)
    (on : rvCheckXs (m.cpus h).csr.mstatus rvStatusFsBaseBit = true) :
    HooksUnseen mc m h insn := by
  rcases legal with ⟨form, double, op, legal⟩ | ⟨fused, double, legal⟩
  · have format : FpFormat (m.cpus h) insn double := ⟨on, rvFloatFormat_of_fmt legal.encodes.fmt⟩
    obtain ⟨known, ok⟩ := encodes_tested legal.encodes
    cases opFp_outcome mc form format with
    | unknown op rejects => exact absurd known op
    | reserved op funct3 rejects =>
        rw [ok] at funct3
        cases funct3
    | completes op funct3 completes => exact completes
  · exact fused_completes mc fused ⟨on, rvFloatFormat_of_fmt legal.fmt⟩

/-! ### Rounding mode -/

theorem FpLegal.mode {insn : U32} (legal : FpLegal cpu insn) (rounds : FpMayRound insn) :
    Rvfd.effectiveMode insn (rvFcsrFrm cpu) < 5 := by
  rcases legal with ⟨form, double, op, legal⟩ | ⟨fused, double, legal⟩
  · rcases rounds with ⟨_, double', op', encodes, round, _⟩ | fused
    · exact legal.mode (encodes.hasMode legal.encodes round)
    · exact absurd fused (not_fused_of_opFp form)
  · exact legal.mode

theorem applyFrm_host {round : FeRound} (current : FeRound)
    (mode : hostRound (rvEffectiveFrm cpu insn) = some round) :
    applyFrm cpu insn current = (round, false) := by
  unfold applyFrm
  generalize rvEffectiveFrm cpu insn = frm at mode
  unfold hostRound at mode
  split at mode <;> cases mode <;> rfl

theorem applyFrm_rmm (current : FeRound) (mode : rvEffectiveFrm cpu insn = 4) :
    applyFrm cpu insn current = (.tonearest, true) := by
  rw [applyFrm, mode]
  rfl

/-- The environment has the effective mode if the host does, or if SoftFloat is enabled
and the word names the mode itself. -/
theorem givesMode_iff (mc : EmuConfig δ) (cpu : RvCpu) (insn : U32) (current : FeRound)
    (legal : Rvfd.effectiveMode insn (rvFcsrFrm cpu) < 5) :
    GivesMode (rvFloatEnv mc cpu insn current) (Rvfd.effectiveMode insn (rvFcsrFrm cpu)) ↔
      FpModeKnown mc cpu insn := by
  have read : rvEffectiveFrm cpu insn = Rvfd.effectiveMode insn (rvFcsrFrm cpu) := rfl
  have rmm : hostRound 4 = none := rfl
  unfold GivesMode FpModeKnown
  rw [← read] at legal ⊢
  cases host : hostRound (rvEffectiveFrm cpu insn) with
  | some round =>
      have other : rvEffectiveFrm cpu insn ≠ 4 := by
        intro mode
        rw [mode, rmm] at host
        cases host
      simp only [rvFloatEnv, applyFrm_host current host, Bool.and_false, Bool.false_eq_true,
        if_false]
      exact iff_of_true trivial (Or.inl other)
  | none =>
      have only : ∀ mode : BitVec 3, mode < 5 → hostRound mode = none → mode = 4 := by decide
      have named : ∀ funct3, softRoundOf 4 = some (rvFrmToSoftfloat funct3) ↔ funct3 = 4 := by
        decide
      have mode := only _ legal host
      simp only [rvFloatEnv, applyFrm_rmm current mode, mode, Bool.and_true, named]
      cases mc.rvFloatExactMath <;> simp

theorem FpLegal.runsWith (legal : FpLegal (m.cpus h) insn) (rounds : FpMayRound insn)
    (mc : EmuConfig δ) (on : rvCheckXs (m.cpus h).csr.mstatus rvStatusFsBaseBit = true) :
    RunsWith mc m h insn (rvFloatEnv mc (m.cpus h) insn (m.feround h)) := by
  rcases legal with ⟨form, double, op, legal⟩ | ⟨fused, double, legal⟩
  · rcases rounds with ⟨_, double', op', encodes, round, _⟩ | fused
    · have table : ∀ funct5 ∈ [0b00000#5, 0b00001#5, 0b00010#5, 0b00011#5, 0b01011#5, 0b01000#5,
          0b11000#5, 0b11010#5], funct5 ∈ rvFloatFunct5s.take 10 ∧
            funct5 ∉ [0b10100#5, 0b00100#5, 0b00101#5] := by decide
      have listed := table _ ((Rvfd.hasMode_iff op').mp round)
      have funct5 : rvInsnFunct5 insn = (Rvfd.form false op').funct5 :=
        encodes.funct5.trans (Rvfd.form_funct5 double' op')
      rw [← funct5] at listed
      cases result : rvFloatRounded mc (m.cpus h) insn
          (rvFloatEnv mc (m.cpus h) insn (m.feround h)) double' with
      | none => exact absurd listed.1 (rvFloatRounded_none.mp result)
      | some out =>
          exact ⟨double', out, Or.inl result, rvForcefeedInsn_rounded form
            ⟨on, rvFloatFormat_of_fmt encodes.fmt⟩ listed.2 result⟩
    · exact absurd fused (not_fused_of_opFp form)
  · exact ⟨double, _, Or.inr ⟨fused, rfl⟩,
      rvForcefeedInsn_fused fused ⟨on, rvFloatFormat_of_fmt legal.fmt⟩⟩

end Dispatch

/-- With floating point on, the code does as it should for a word that is not legal
exactly if it tests for it, and for a legal one exactly if the host or the word has its mode. -/
theorem fpStrict_iff (mc : EmuConfig δ) (m : EmuMachine δ) (h : Nat) (insn : U32)
    (word : IsFpWord insn) (on : rvCheckXs (m.cpus h).csr.mstatus rvStatusFsBaseBit = true) :
    FpStrict mc m h insn ↔
      (¬FpLegal (m.cpus h) insn → FpTested (m.cpus h) insn) ∧
        (FpLegal (m.cpus h) insn → FpMayRound insn → FpModeKnown mc (m.cpus h) insn) := by
  constructor
  · intro strict
    exact ⟨fun illegal => (rejectsKept_iff mc word on).mp (strict.rejects illegal),
      fun legal rounds => (givesMode_iff mc _ insn _ (legal.mode rounds)).mp
        (strict.mode legal rounds).2⟩
  · rintro ⟨tested, known⟩
    exact ⟨fun illegal => (rejectsKept_iff mc word on).mpr (tested illegal),
      fun legal => (legal.completes mc on).not_illegal,
      fun legal rounds => ⟨legal.runsWith rounds mc on,
        (givesMode_iff mc _ insn _ (legal.mode rounds)).mpr (known legal rounds)⟩⟩

/-- FADD.D to nearest. -/
theorem fpStrict_iff_add : FpStrict orderingConfig (minMaxMachine fun _ => 0) 0 0x02208053 := by
  have legal : FpLegal ((minMaxMachine fun _ => 0).cpus 0) 0x02208053 :=
    Or.inl ⟨by decide, true, .add, by decide, fun _ => by decide⟩
  exact (fpStrict_iff orderingConfig (minMaxMachine fun _ => 0) 0 0x02208053 (Or.inl (by decide))
    (by decide +kernel)).mpr ⟨fun illegal => absurd legal illegal, fun _ _ => Or.inl (by decide)⟩

/-- FSQRT.D with another `rs2` than 0 takes the root. -/
theorem fpStrict_sqrt :
    ¬∀ (mc : EmuConfig Unit) (m : EmuMachine Unit) (h : Nat) (insn : U32), IsFpWord insn →
      rvCheckXs (m.cpus h).csr.mstatus rvStatusFsBaseBit = true → FpStrict mc m h insn := by
  intro always
  have strict := always orderingConfig (minMaxMachine fun _ => 0) 0 0x5a308053 (Or.inl (by decide))
    (by decide +kernel)
  have illegal : ¬FpLegal ((minMaxMachine fun _ => 0).cpus 0) 0x5a308053 := by
    rintro (⟨_, double, op, legal⟩ | ⟨fused, _⟩)
    · have funct5 := legal.encodes.funct5.trans (Rvfd.form_funct5 double op)
      cases op with
      | sqrt => exact absurd (legal.encodes.rs2 0 rfl) (by decide)
      | toInt type => exact absurd (funct5.trans (rfl : _ = 0b11000#5)) (by decide)
      | fromInt type => exact absurd (funct5.trans (rfl : _ = 0b11010#5)) (by decide)
      | _ => exact absurd funct5 (by decide)
    · exact not_fused_of_opFp (by decide) fused
  obtain ⟨m', _, rejects⟩ := strict.rejects illegal
  have completes : HooksUnseen orderingConfig (minMaxMachine fun _ => 0) 0 0x5a308053 :=
    ⟨rvForcefeedInsn orderingConfig (minMaxMachine fun _ => 0) 0 0x5a308053, fun _ => rfl⟩
  exact completes.not_illegal ⟨m', rejects⟩

end Riscmulator
