import Riscmulator.FpMinMax

/-! The NaNs that floating-point instructions write on the host path. -/

namespace Riscmulator

variable {δ : Type}

/-! ### Specification -/

/-- A register that holds a NaN of the format holds the canonical one. -/
def NanCanonical (f64 : Bool) (r : U64) : Prop :=
  if f64 then Ieee.binary64.isNan r → r = rvCanonicalNanF64
  else Ieee.binary32.isNan (lowF32 r) → r = boxF32 rvCanonicalNanF32

/-- The host's `fmin` and `fmax` of two numbers are numbers. -/
structure HostFpu.MinMaxNumbers (fpu : HostFpu) : Prop where
  numbers32 : ∀ op ∈ [FpBinop.fmin, .fmax], ∀ round f g, Ieee.binary32.isNan f = false →
    Ieee.binary32.isNan g = false → Ieee.binary32.isNan (fpu.binop32 op round f g).1 = false
  numbers64 : ∀ op ∈ [FpBinop.fmin, .fmax], ∀ round f g, Ieee.binary64.isNan f = false →
    Ieee.binary64.isNan g = false → Ieee.binary64.isNan (fpu.binop64 op round f g).1 = false

/-- The OP-FP instructions that compute a floating-point number. -/
def arithmeticOps : List Rvfd.Op :=
  [.add, .sub, .mul, .div, .sqrt, .convert, .min, .max]

/-- The words that may write a NaN that they compute. -/
inductive ComputesNan (insn : U32) (f64 : Bool) : Prop
  | opFp (op : Rvfd.Op) (arithmetic : op ∈ arithmeticOps) (form : rvOpMajOf insn = some .opFp)
      (encodes : Rvfd.Encodes insn f64 op)
  | fused (form : IsFused insn) (fmt : Rvfd.fmt insn = Rvfd.fmtCode f64)

/-! ### Canonical results -/

section Results

variable {mc : EmuConfig δ} {m : EmuMachine δ} {cpu : RvCpu} {h : Nat} {insn : U32} {env : FpEnv}
  {f64 : Bool}

theorem nanCanonical_f64 (f : U64) : NanCanonical true (canonNanF64 f) := by
  intro nan
  rw [canonNanF64, isnanF64_eq] at nan ⊢
  split
  · rfl
  · next number =>
      rw [if_neg number] at nan
      exact absurd nan number

theorem nanCanonical_f32 (f : U32) : NanCanonical false (boxF32 (canonNanF32 f)) := by
  intro nan
  rw [lowF32_boxF32, canonNanF32, isnanF32_eq] at nan
  rw [canonNanF32, isnanF32_eq]
  split
  · rfl
  · next number =>
      rw [if_neg number] at nan
      exact absurd nan number

theorem rvFloatBinop_canonical (op : FpBinop) (host : env.soft = false) :
    NanCanonical f64 ((rvFloatBinop mc op cpu insn env f64).1.fregs (rvInsnRd insn)) := by
  simp only [rvFloatBinop, host]
  cases f64
  · rw [rvFregWrite_same]
    exact nanCanonical_f32 _
  · rw [rvFregWrite_same]
    exact nanCanonical_f64 _

theorem rvFloatSqrt_canonical (host : env.soft = false) :
    NanCanonical f64 ((rvFloatSqrt mc cpu insn env f64).1.fregs (rvInsnRd insn)) := by
  simp only [rvFloatSqrt, host]
  cases f64
  · rw [rvFregWrite_same]
    exact nanCanonical_f32 _
  · rw [rvFregWrite_same]
    exact nanCanonical_f64 _

theorem rvFloatFtof_canonical (host : env.soft = false) :
    NanCanonical f64 ((rvFloatFtof mc cpu insn env f64).1.fregs (rvInsnRd insn)) := by
  simp only [rvFloatFtof, host, Bool.false_eq_true, if_false]
  cases f64
  · rw [if_neg Bool.false_ne_true, rvFregWrite_same]
    exact nanCanonical_f32 _
  · rw [if_pos rfl, rvFregWrite_same]
    exact nanCanonical_f64 _

/-- A NaN that FMIN or FMAX chooses is the canonical one. -/
theorem rvMinMaxChoice_nan {w : Nat} {fmt : Ieee.Format} {isMin : Bool}
    {canonical host f g : BitVec (w + 1)}
    (number : fmt.isNan f = false → fmt.isNan g = false → fmt.isNan host = false)
    (nan : fmt.isNan (rvMinMaxChoice fmt isMin canonical host f g) = true) :
    rvMinMaxChoice fmt isMin canonical host f g = canonical := by
  unfold rvMinMaxChoice at nan ⊢
  cases left : fmt.isNan f <;> cases right : fmt.isNan g <;>
    simp only [left, right, Bool.and_self, Bool.and_false, Bool.and_true, Bool.false_eq_true,
      if_false, if_true] at nan ⊢
  · split at nan
    · rw [fmt.isNan_zero] at nan
      cases nan
    · rw [number left right] at nan
      cases nan

theorem rvMinMaxWritten_canonical (numbers : mc.fpu.MinMaxNumbers) (round : FeRound) (isMin : Bool)
    (lhs rhs : U64) : NanCanonical f64 (rvMinMaxWritten mc round isMin f64 lhs rhs) := by
  have known : (if isMin then .fmin else .fmax : FpBinop) ∈ [FpBinop.fmin, .fmax] := by
    cases isMin <;> decide
  cases f64
  · intro nan
    unfold rvMinMaxWritten at nan ⊢
    rw [if_neg Bool.false_ne_true, lowF32_boxF32] at nan
    rw [if_neg Bool.false_ne_true,
      rvMinMaxChoice_nan (numbers.numbers32 _ known round _ _) nan]
  · intro nan
    exact rvMinMaxChoice_nan (numbers.numbers64 _ known round _ _) nan

end Results

/-! ### Words -/

section Words

variable {mc : EmuConfig δ} {m : EmuMachine δ} {h : Nat} {insn : U32} {f64 : Bool}

theorem rounded_canonical (form : rvOpMajOf insn = some .opFp)
    (format : FpFormat (m.cpus h) insn f64)
    (rounded : rvInsnFunct5 insn ∉ [0b10100#5, 0b00100#5, 0b00101#5]) {out : RvCpu × FpFlags}
    (computed : rvFloatRounded mc (m.cpus h) insn (rvFloatEnv mc (m.cpus h) insn (m.feround h))
      f64 = some out)
    (canonical : NanCanonical f64 (out.1.fregs (rvInsnRd insn))) :
    NanCanonical f64 (((rvForcefeedInsn mc m h insn).cpus h).fregs (rvInsnRd insn)) := by
  rw [rvForcefeedInsn_rounded form format rounded computed, rvFloatFinish_fregs]
  exact canonical

theorem minMax_canonical (numbers : mc.fpu.MinMaxNumbers) (word : IsMinMax insn)
    (format : FpFormat (m.cpus h) insn f64) :
    NanCanonical f64 (((rvForcefeedInsn mc m h insn).cpus h).fregs (rvInsnRd insn)) := by
  rw [word.forcefeed mc format, EmuMachine.setCpu_same, rvFregWrite_same]
  exact rvMinMaxWritten_canonical numbers _ _ _ _

theorem opFp_canonical (numbers : mc.fpu.MinMaxNumbers) {op : Rvfd.Op}
    (arithmetic : op ∈ arithmeticOps) (form : rvOpMajOf insn = some .opFp)
    (encodes : Rvfd.Encodes insn f64 op)
    (on : rvCheckXs (m.cpus h).csr.mstatus rvStatusFsBaseBit = true)
    (host : (rvFloatEnv mc (m.cpus h) insn (m.feround h)).soft = false) :
    NanCanonical f64 (((rvForcefeedInsn mc m h insn).cpus h).fregs (rvInsnRd insn)) := by
  have format : FpFormat (m.cpus h) insn f64 := ⟨on, rvFloatFormat_of_fmt encodes.fmt⟩
  have funct5 : rvInsnFunct5 insn = (Rvfd.form false op).funct5 :=
    encodes.funct5.trans (Rvfd.form_funct5 f64 op)
  have binop : ∀ (kind : FpBinop),
      rvInsnFunct5 insn ∉ [0b10100#5, 0b00100#5, 0b00101#5] →
      rvFloatRounded mc (m.cpus h) insn (rvFloatEnv mc (m.cpus h) insn (m.feround h)) f64 =
        some (rvFloatBinop mc kind (m.cpus h) insn (rvFloatEnv mc (m.cpus h) insn (m.feround h))
          f64) →
      NanCanonical f64 (((rvForcefeedInsn mc m h insn).cpus h).fregs (rvInsnRd insn)) :=
    fun kind rounded computed => rounded_canonical form format rounded computed
      (rvFloatBinop_canonical kind host)
  simp only [arithmeticOps, List.mem_cons, List.not_mem_nil, or_false] at arithmetic
  rcases arithmetic with rfl | rfl | rfl | rfl | rfl | rfl | rfl | rfl
  · exact binop .add (by rw [funct5]; decide) (by rw [rvFloatRounded, funct5]; rfl)
  · exact binop .sub (by rw [funct5]; decide) (by rw [rvFloatRounded, funct5]; rfl)
  · exact binop .mul (by rw [funct5]; decide) (by rw [rvFloatRounded, funct5]; rfl)
  · exact binop .div (by rw [funct5]; decide) (by rw [rvFloatRounded, funct5]; rfl)
  · exact rounded_canonical form format (by rw [funct5]; decide)
      (by rw [rvFloatRounded, funct5]; rfl) (rvFloatSqrt_canonical host)
  · exact rounded_canonical form format (by rw [funct5]; decide)
      (by rw [rvFloatRounded, funct5]; rfl) (rvFloatFtof_canonical host)
  · exact minMax_canonical numbers ⟨form, funct5, Or.inl (encodes.funct3 0 rfl)⟩ format
  · exact minMax_canonical numbers ⟨form, funct5, Or.inr (encodes.funct3 1 rfl)⟩ format

/-! ### A host with another NaN -/

/-- A host whose arithmetic returns the NaN with the sign bit set. -/
def nanFpu : HostFpu :=
  { orderingFpu with
    binop32 := fun op round f g => match op with
      | .fmin | .fmax => orderingFpu.binop32 op round f g
      | _ => (0xFFC00000, 0)
    binop64 := fun op round f g => match op with
      | .fmin | .fmax => orderingFpu.binop64 op round f g
      | _ => (0xFFF8000000000000, 0)
    fma32 := fun _ _ _ _ => (0xFFC00000, 0)
    fma64 := fun _ _ _ _ => (0xFFF8000000000000, 0) }

theorem nanFpu_numbers : nanFpu.MinMaxNumbers where
  numbers32 := by
    intro op known round f g left right
    rcases List.mem_pair.mp known with rfl | rfl
    · exact (apply_ite Ieee.binary32.isNan _ f g).trans (by rw [left, right, ite_self])
    · exact (apply_ite Ieee.binary32.isNan _ f g).trans (by rw [left, right, ite_self])
  numbers64 := by
    intro op known round f g left right
    rcases List.mem_pair.mp known with rfl | rfl
    · exact (apply_ite Ieee.binary64.isNan _ f g).trans (by rw [left, right, ite_self])
    · exact (apply_ite Ieee.binary64.isNan _ f g).trans (by rw [left, right, ite_self])

theorem fused_not_canonical (form : IsFused insn) (format : FpFormat (m.cpus h) insn f64)
    (host : (rvFloatEnv mc (m.cpus h) insn (m.feround h)).soft = false) :
    ¬NanCanonical f64
      (((rvForcefeedInsn { mc with fpu := nanFpu } m h insn).cpus h).fregs (rvInsnRd insn)) := by
  have env : rvFloatEnv { mc with fpu := nanFpu } (m.cpus h) insn (m.feround h) =
      rvFloatEnv mc (m.cpus h) insn (m.feround h) := rfl
  rw [rvForcefeedInsn_fused form format, env, rvFloatFinish_fregs]
  simp only [rvFloatFused, host]
  cases f64
  · rw [rvFregWrite_same]
    intro canonical
    have nan : Ieee.binary32.isNan (lowF32 (boxF32 0xFFC00000)) = true := by decide
    have same : boxF32 0xFFC00000 = boxF32 rvCanonicalNanF32 := canonical nan
    exact absurd same (by decide)
  · rw [rvFregWrite_same]
    intro canonical
    have nan : Ieee.binary64.isNan (0xFFF8000000000000 : U64) = true := by decide
    have same : (0xFFF8000000000000 : U64) = rvCanonicalNanF64 := canonical nan
    exact absurd same (by decide)

/-- Every NaN written is canonical under every host, but for the fused operations. -/
theorem nanCanonical_iff (mc : EmuConfig δ) (m : EmuMachine δ) (h : Nat) (insn : U32) (f64 : Bool)
    (word : ComputesNan insn f64)
    (on : rvCheckXs (m.cpus h).csr.mstatus rvStatusFsBaseBit = true)
    (host : (rvFloatEnv mc (m.cpus h) insn (m.feround h)).soft = false) :
    (∀ fpu : HostFpu, fpu.MinMaxNumbers → NanCanonical f64
      (((rvForcefeedInsn { mc with fpu := fpu } m h insn).cpus h).fregs (rvInsnRd insn))) ↔
      ¬IsFused insn := by
  constructor
  · intro canonical fused
    have fmt : Rvfd.fmt insn = Rvfd.fmtCode f64 := by
      cases word with
      | opFp op arithmetic form encodes => exact encodes.fmt
      | fused form fmt => exact fmt
    exact fused_not_canonical fused ⟨on, rvFloatFormat_of_fmt fmt⟩ host
      (canonical nanFpu nanFpu_numbers)
  · intro notFused fpu numbers
    cases word with
    | opFp op arithmetic form encodes =>
        refine opFp_canonical ?_ arithmetic form encodes on host
        exact numbers
    | fused form fmt => exact absurd form notFused

/-- FADD.D on a host that returns a NaN of its own: the register gets the canonical one. -/
theorem nanCanonical_iff_add :
    (nanFpu.binop64 .add .tonearest 0 0).1 = 0xFFF8000000000000 ∧
      ((rvForcefeedInsn { orderingConfig with fpu := nanFpu } (minMaxMachine fun _ => 0) 0
        0x02208053).cpus 0).fregs (rvInsnRd 0x02208053) = rvCanonicalNanF64 := by
  have canonical : NanCanonical true
      (((rvForcefeedInsn { orderingConfig with fpu := nanFpu } (minMaxMachine fun _ => 0) 0
        0x02208053).cpus 0).fregs (rvInsnRd 0x02208053)) :=
    (nanCanonical_iff orderingConfig (minMaxMachine fun _ => 0) 0 0x02208053 true
      (.opFp .add (by decide) (by decide) (by decide)) (by decide +kernel) (by decide +kernel)).mpr
      (by unfold IsFused; decide) nanFpu nanFpu_numbers
  exact ⟨rfl, canonical (by decide +kernel)⟩

/-- FMADD.D writes the NaN of the host. -/
theorem nanCanonical_fused :
    ¬∀ (mc : EmuConfig Unit) (m : EmuMachine Unit) (h : Nat) (insn : U32) (f64 : Bool),
      ComputesNan insn f64 → rvCheckXs (m.cpus h).csr.mstatus rvStatusFsBaseBit = true →
        (rvFloatEnv mc (m.cpus h) insn (m.feround h)).soft = false → mc.fpu.MinMaxNumbers →
          NanCanonical f64 (((rvForcefeedInsn mc m h insn).cpus h).fregs (rvInsnRd insn)) := by
  intro always
  have canonical := always { orderingConfig with fpu := nanFpu } (minMaxMachine fun _ => 0) 0
    0x1a208043 true (.fused (by unfold IsFused; decide) (by decide)) (by decide +kernel)
    (by decide +kernel) nanFpu_numbers
  have same : (0xFFF8000000000000 : U64) = rvCanonicalNanF64 := canonical (by decide +kernel)
  exact absurd same (by decide)

end Words

end Riscmulator
