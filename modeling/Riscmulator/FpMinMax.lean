import Riscmulator.FpTracking
import Riscmulator.FpPatterns
import Riscmulator.PreciseTraps

/-! FMIN and FMAX against the minimum and the maximum of IEEE 754 numbers. -/

namespace Riscmulator

variable {δ : Type}

/-! ### Specification -/

section Specification

variable {w : Nat}

/-- The minimum or the maximum of two patterns, as the F extension defines it. -/
def fpMinMax (fmt : Ieee.Format) (isMin : Bool) (canonical f g : BitVec (w + 1)) :
    BitVec (w + 1) :=
  if fmt.isNan f && fmt.isNan g then canonical
  else if fmt.isNan f then g
  else if fmt.isNan g then f
  else if Ieee.magnitude f = 0 ∧ Ieee.magnitude g = 0 then
    if f.msb = g.msb then f else Ieee.zero isMin
  else if isMin then if Ieee.order f ≤ Ieee.order g then f else g
  else if Ieee.order f ≥ Ieee.order g then f else g

/-- What the host's `fmin` or `fmax` is assumed to return. -/
def IsExtremeOf (fmt : Ieee.Format) (isMin : Bool) (f g r : BitVec (w + 1)) : Prop :=
  fmt.Comparable f g → if isMin then fmt.IsMinimum f g r else fmt.IsMaximum f g r

end Specification

/-- The host's `fmin` and `fmax` return the numerically smaller and larger of two
numbers that are not both zero. -/
structure HostFpu.MinMaxNumeric (fpu : HostFpu) : Prop where
  fmin32 : ∀ round f g, IsExtremeOf Ieee.binary32 true f g (fpu.binop32 .fmin round f g).1
  fmax32 : ∀ round f g, IsExtremeOf Ieee.binary32 false f g (fpu.binop32 .fmax round f g).1
  fmin64 : ∀ round f g, IsExtremeOf Ieee.binary64 true f g (fpu.binop64 .fmin round f g).1
  fmax64 : ∀ round f g, IsExtremeOf Ieee.binary64 false f g (fpu.binop64 .fmax round f g).1

/-- The word is FMIN or FMAX. -/
structure IsMinMax (insn : U32) : Prop where
  form : rvOpMajOf insn = some .opFp
  op : rvInsnFunct5 insn = 0b00101
  listed : rvInsnFunct3 insn = 0 ∨ rvInsnFunct3 insn = 1

/-- The same operation on the operands in the other order. -/
structure OperandsSwapped (insn insn' : U32) : Prop where
  opMaj : rvInsnOpMaj insn' = rvInsnOpMaj insn
  funct5 : rvInsnFunct5 insn' = rvInsnFunct5 insn
  ffmt : rvInsnFfmt insn' = rvInsnFfmt insn
  funct3 : rvInsnFunct3 insn' = rvInsnFunct3 insn
  rd : rvInsnRd insn' = rvInsnRd insn
  rs1 : rvInsnRs1 insn' = rvInsnRs2 insn
  rs2 : rvInsnRs2 insn' = rvInsnRs1 insn

/-- The result of FMIN or FMAX. -/
def fpMinMaxResult (cpu : RvCpu) (insn : U32) (f64 : Bool) : U64 :=
  let isMin : Bool := rvInsnFunct3 insn = 0
  let lhs := cpu.fregs (rvInsnRs1 insn)
  let rhs := cpu.fregs (rvInsnRs2 insn)
  if f64 then fpMinMax Ieee.binary64 isMin rvCanonicalNanF64 lhs rhs
  else boxF32 (fpMinMax Ieee.binary32 isMin rvCanonicalNanF32 (unboxF32 lhs) (unboxF32 rhs))

def fpSignaling (f64 : Bool) (r : U64) : Bool :=
  if f64 then Ieee.binary64.isSignaling r else Ieee.binary32.isSignaling (unboxF32 r)

def fpIsZero (f64 negative : Bool) (r : U64) : Prop :=
  if f64 then r = Ieee.zero negative else unboxF32 r = Ieee.zero negative

instance (f64 negative : Bool) (r : U64) : Decidable (fpIsZero f64 negative r) :=
  inferInstanceAs (Decidable (if f64 then r = _ else _))

/-- FMIN or FMAX writes the minimum or the maximum, sets NV for a signaling operand,
and does the same with its operands in the other order. -/
structure MinMaxMeets (mc : EmuConfig δ) (m : EmuMachine δ) (h : Nat) (insn : U32) (f64 : Bool) :
    Prop where
  result : ((rvForcefeedInsn mc m h insn).cpus h).fregs (rvInsnRd insn) =
    fpMinMaxResult (m.cpus h) insn f64
  flags : ((rvForcefeedInsn mc m h insn).cpus h).csr.fcsr = (m.cpus h).csr.fcsr |||
    if fpSignaling f64 ((m.cpus h).fregs (rvInsnRs1 insn)) ||
        fpSignaling f64 ((m.cpus h).fregs (rvInsnRs2 insn)) then bit rvFflagsNvBit else 0
  swapped : ∀ insn', OperandsSwapped insn insn' →
    rvForcefeedInsn mc m h insn' = rvForcefeedInsn mc m h insn

/-- FMIN of two positive zeros, or FMAX of two negative zeros. -/
def ZerosOfOtherSign (cpu : RvCpu) (insn : U32) (f64 : Bool) : Prop :=
  fpIsZero f64 (rvInsnFunct3 insn ≠ 0) (cpu.fregs (rvInsnRs1 insn)) ∧
    fpIsZero f64 (rvInsnFunct3 insn ≠ 0) (cpu.fregs (rvInsnRs2 insn))

/-! ### The code's choice -/

section Choice

variable {w : Nat} {fmt : Ieee.Format}

/-- What the code chooses, with the result of the host's `fmin` or `fmax`. -/
def rvMinMaxChoice (fmt : Ieee.Format) (isMin : Bool) (canonical host f g : BitVec (w + 1)) :
    BitVec (w + 1) :=
  if fmt.isNan f && fmt.isNan g then canonical
  else if fmt.isNan f then g
  else if fmt.isNan g then f
  else if Ieee.magnitude f = 0 ∧ Ieee.magnitude g = 0 then
    Ieee.zero isMin
  else host

theorem IsExtremeOf.symm {isMin : Bool} {f g r : BitVec (w + 1)}
    (extreme : IsExtremeOf fmt isMin f g r) : IsExtremeOf fmt isMin g f r := by
  intro comparable
  have swapped := extreme comparable.symm
  cases isMin
  · exact Ieee.Format.IsExtreme.symm swapped
  · exact Ieee.Format.IsExtreme.symm swapped

theorem IsExtremeOf.host_eq (finite : 0 < fmt.infinity) {isMin : Bool} {f g r : BitVec (w + 1)}
    (host : IsExtremeOf fmt isMin f g r) (comparable : fmt.Comparable f g) :
    r = if isMin then if Ieee.order f ≤ Ieee.order g then f else g
      else if Ieee.order f ≥ Ieee.order g then f else g := by
  have extreme := host comparable
  cases isMin
  · exact (Ieee.Format.isMaximum_iff finite comparable).mp extreme
  · exact (Ieee.Format.isMinimum_iff finite comparable).mp extreme

/-- The code is wrong exactly for two zeros that both have the sign it does not choose. -/
theorem rvMinMaxChoice_iff (finite : 0 < fmt.infinity) {isMin : Bool}
    {canonical host f g : BitVec (w + 1)} (extreme : IsExtremeOf fmt isMin f g host) :
    rvMinMaxChoice fmt isMin canonical host f g = fpMinMax fmt isMin canonical f g ↔
      ¬(f = Ieee.zero (!isMin) ∧ g = Ieee.zero (!isMin)) := by
  have number : ∀ {x : BitVec (w + 1)}, Ieee.magnitude x = 0 → fmt.isNan x = false := by
    intro x zero
    rw [Ieee.Format.isNan, zero]
    exact decide_eq_false (Nat.not_lt_zero _)
  unfold rvMinMaxChoice fpMinMax
  by_cases zeros : Ieee.magnitude f = 0 ∧ Ieee.magnitude g = 0
  · rw [number zeros.1, number zeros.2, if_pos zeros, if_pos zeros]
    simp only [Bool.and_false, Bool.false_eq_true, if_false]
    by_cases same : f.msb = g.msb
    · rw [if_pos same, eq_comm, Ieee.eq_zero_iff, Ieee.eq_zero_iff, Ieee.eq_zero_iff, ← same]
      simp only [zeros.1, zeros.2, true_and, and_self]
      cases f.msb <;> cases isMin <;> decide
    · rw [if_neg same]
      refine iff_of_true rfl fun both => same ?_
      exact (Ieee.eq_zero_iff.mp both.1).2.trans (Ieee.eq_zero_iff.mp both.2).2.symm
  · rw [if_neg zeros, if_neg zeros]
    refine iff_of_true ?_ fun both =>
      zeros ⟨(Ieee.eq_zero_iff.mp both.1).1, (Ieee.eq_zero_iff.mp both.2).1⟩
    cases left : fmt.isNan f
    · cases right : fmt.isNan g
      · rw [extreme.host_eq finite ⟨left, right, zeros⟩]
      · rfl
    · rfl

theorem rvMinMaxChoice_comm (finite : 0 < fmt.infinity) {isMin : Bool}
    {canonical host host' f g : BitVec (w + 1)} (extreme : IsExtremeOf fmt isMin f g host)
    (extreme' : IsExtremeOf fmt isMin g f host') :
    rvMinMaxChoice fmt isMin canonical host' g f = rvMinMaxChoice fmt isMin canonical host f g := by
  unfold rvMinMaxChoice
  cases left : fmt.isNan f <;> cases right : fmt.isNan g
  · by_cases zeros : Ieee.magnitude f = 0 ∧ Ieee.magnitude g = 0
    · rw [if_pos zeros, if_pos zeros.symm]
      rfl
    · have comparable : fmt.Comparable f g := ⟨left, right, zeros⟩
      rw [if_neg zeros, if_neg (mt And.symm zeros), extreme.host_eq finite comparable,
        extreme'.symm.host_eq finite comparable]
      rfl
  · rfl
  · rfl
  · rfl

end Choice

/-! ### One instruction -/

section Instruction

variable {mc : EmuConfig δ} {m : EmuMachine δ} {cpu : RvCpu} {h : Nat} {insn insn' : U32}
  {f64 : Bool}

theorem rvIsSnan_operand (cpu : RvCpu) (f64 : Bool) (idx : BitVec 5) :
    rvIsSnan (rvFregReadAs cpu f64 idx) f64 = fpSignaling f64 (cpu.fregs idx) := by
  cases f64
  · exact (rvIsSnan_f32 _).trans (congrArg _ (lowF32_rvFregReadF32 cpu idx))
  · exact rvIsSnan_f64 _

/-- What FMIN or FMAX writes. -/
def rvMinMaxWritten (mc : EmuConfig δ) (round : FeRound) (isMin f64 : Bool) (lhs rhs : U64) : U64 :=
  let op : FpBinop := if isMin then .fmin else .fmax
  if f64 then
    rvMinMaxChoice Ieee.binary64 isMin rvCanonicalNanF64 (mc.fpu.binop64 op round lhs rhs).1 lhs rhs
  else
    boxF32 (rvMinMaxChoice Ieee.binary32 isMin rvCanonicalNanF32
      (mc.fpu.binop32 op round (unboxF32 lhs) (unboxF32 rhs)).1 (unboxF32 lhs) (unboxF32 rhs))

theorem rvFloatMinMaxResult_f32 (mc : EmuConfig δ) (round : FeRound)
    (listed : rvInsnFunct3 insn = 0 ∨ rvInsnFunct3 insn = 1) (f g : U32) :
    rvFloatMinMaxResult mc round insn false (boxF32 f) (boxF32 g) =
      some (boxF32 (rvMinMaxChoice Ieee.binary32 (rvInsnFunct3 insn = 0) rvCanonicalNanF32
        (mc.fpu.binop32 (if rvInsnFunct3 insn = 0 then .fmin else .fmax) round f g).1 f g)) := by
  simp only [rvFloatMinMaxResult, Bool.false_eq_true, if_false, Bool.not_false, Bool.true_and,
    Bool.false_and, lowF32_boxF32, isnanF32_eq, isZeroF32_iff, rvMinMaxChoice, Bool.and_eq_true,
    decide_eq_true_eq]
  cases Ieee.binary32.isNan f <;> cases Ieee.binary32.isNan g
  · by_cases zeros : Ieee.magnitude f = 0 ∧ Ieee.magnitude g = 0
    · simp only [zeros, and_self, if_true, Bool.false_eq_true, if_false]
      rcases listed with funct3 | funct3 <;> rw [funct3] <;> rfl
    · simp only [if_neg zeros, and_self, Bool.false_eq_true, if_false]
      rcases listed with funct3 | funct3 <;> rw [funct3] <;> rfl
  · rfl
  · rfl
  · rfl

theorem rvFloatMinMaxResult_f64 (mc : EmuConfig δ) (round : FeRound)
    (listed : rvInsnFunct3 insn = 0 ∨ rvInsnFunct3 insn = 1) (f g : U64) :
    rvFloatMinMaxResult mc round insn true f g =
      some (rvMinMaxChoice Ieee.binary64 (rvInsnFunct3 insn = 0) rvCanonicalNanF64
        (mc.fpu.binop64 (if rvInsnFunct3 insn = 0 then .fmin else .fmax) round f g).1 f g) := by
  simp only [rvFloatMinMaxResult, Bool.false_eq_true, if_false, Bool.not_true, Bool.true_and,
    Bool.false_and, if_true, isnanF64_eq, isZeroF64_iff, rvMinMaxChoice, Bool.and_eq_true,
    decide_eq_true_eq]
  cases Ieee.binary64.isNan f <;> cases Ieee.binary64.isNan g
  · by_cases zeros : Ieee.magnitude f = 0 ∧ Ieee.magnitude g = 0
    · simp only [zeros, and_self, if_true, Bool.false_eq_true, if_false]
      rcases listed with funct3 | funct3 <;> rw [funct3] <;> rfl
    · simp only [if_neg zeros, and_self, Bool.false_eq_true, if_false]
      rcases listed with funct3 | funct3 <;> rw [funct3] <;> rfl
  · rfl
  · rfl
  · rfl

theorem rvFloatMinMaxResult_written (mc : EmuConfig δ) (round : FeRound) (cpu : RvCpu) (f64 : Bool)
    (listed : rvInsnFunct3 insn = 0 ∨ rvInsnFunct3 insn = 1) (rs1 rs2 : BitVec 5) :
    rvFloatMinMaxResult mc round insn f64 (rvFregReadAs cpu f64 rs1) (rvFregReadAs cpu f64 rs2) =
      some (rvMinMaxWritten mc round (rvInsnFunct3 insn = 0) f64 (cpu.fregs rs1)
        (cpu.fregs rs2)) := by
  cases f64
  · rw [rvFregReadAs_f32, rvFregReadAs_f32, rvFloatMinMaxResult_f32 mc round listed]
    simp only [rvMinMaxWritten, decide_eq_true_eq, Bool.false_eq_true, if_false]
  · rw [rvFloatMinMaxResult_f64 mc round listed]
    simp only [rvMinMaxWritten, decide_eq_true_eq, if_true]
    rfl

variable (mc) in
theorem IsMinMax.forcefeed (word : IsMinMax insn) (format : FpFormat (m.cpus h) insn f64) :
    rvForcefeedInsn mc m h insn = m.setCpu h (rvFregWrite
      (if fpSignaling f64 ((m.cpus h).fregs (rvInsnRs1 insn)) ||
          fpSignaling f64 ((m.cpus h).fregs (rvInsnRs2 insn)) then
        rvAccrue (m.cpus h) (bit rvFflagsNvBit) else m.cpus h) (rvInsnRd insn)
      (rvMinMaxWritten mc (m.feround h) (rvInsnFunct3 insn = 0) f64
        ((m.cpus h).fregs (rvInsnRs1 insn)) ((m.cpus h).fregs (rvInsnRs2 insn)))) := by
  have known : ¬rvInsnFunct3 insn > 1 := by
    rcases word.listed with funct3 | funct3 <;> rw [funct3] <;> decide
  have legal : (rvFloatMinMax mc (m.cpus h) (m.feround h) insn f64).2 = false :=
    Bool.not_eq_true _ ▸ mt rvFloatMinMax_illegal_iff.mp known
  have form : rvForcefeedInsn mc m h insn = rvFloatOpFp mc m h insn := by
    simp only [rvForcefeedInsn, word.form]
  rw [form, rvFloatOpFp_minMax format word.op]
  simp only [legal, Bool.false_eq_true, if_false]
  simp only [rvFloatMinMax, rvFloatMinMaxResult_written mc (m.feround h) (m.cpus h) f64 word.listed,
    if_neg known, rvIsSnan_operand]

/-! ### The assumed host -/

section Host

variable {fpu : HostFpu} (host : fpu.MinMaxNumeric) (isMin : Bool) (round : FeRound)

include host

theorem HostFpu.MinMaxNumeric.extreme32 (f g : U32) : IsExtremeOf Ieee.binary32 isMin f g
    (fpu.binop32 (if isMin then .fmin else .fmax) round f g).1 := by
  cases isMin
  · exact host.fmax32 round f g
  · exact host.fmin32 round f g

theorem HostFpu.MinMaxNumeric.extreme64 (f g : U64) : IsExtremeOf Ieee.binary64 isMin f g
    (fpu.binop64 (if isMin then .fmin else .fmax) round f g).1 := by
  cases isMin
  · exact host.fmax64 round f g
  · exact host.fmin64 round f g

end Host

theorem rvMinMaxWritten_comm (host : mc.fpu.MinMaxNumeric) (round : FeRound) (isMin f64 : Bool)
    (lhs rhs : U64) : rvMinMaxWritten mc round isMin f64 rhs lhs =
      rvMinMaxWritten mc round isMin f64 lhs rhs := by
  cases f64
  · exact congrArg boxF32 (rvMinMaxChoice_comm (by decide) (host.extreme32 isMin round _ _)
      (host.extreme32 isMin round _ _))
  · exact rvMinMaxChoice_comm (by decide) (host.extreme64 isMin round _ _)
      (host.extreme64 isMin round _ _)

theorem rvMinMaxWritten_iff (host : mc.fpu.MinMaxNumeric) (round : FeRound) (cpu : RvCpu)
    (insn : U32) (f64 : Bool) :
    rvMinMaxWritten mc round (rvInsnFunct3 insn = 0) f64 (cpu.fregs (rvInsnRs1 insn))
        (cpu.fregs (rvInsnRs2 insn)) = fpMinMaxResult cpu insn f64 ↔
      ¬ZerosOfOtherSign cpu insn f64 := by
  have sign : decide (rvInsnFunct3 insn ≠ 0) = !decide (rvInsnFunct3 insn = 0) := decide_not
  unfold rvMinMaxWritten fpMinMaxResult ZerosOfOtherSign fpIsZero
  rw [sign]
  cases f64
  · exact boxF32_inj.trans (rvMinMaxChoice_iff (by decide) (host.extreme32 _ round _ _))
  · exact rvMinMaxChoice_iff (by decide) (host.extreme64 _ round _ _)

theorem OperandsSwapped.isMinMax (swapped : OperandsSwapped insn insn') (word : IsMinMax insn) :
    IsMinMax insn' := by
  constructor
  · rw [rvOpMajOf, swapped.opMaj]
    exact word.form
  · rw [swapped.funct5]
    exact word.op
  · rw [swapped.funct3]
    exact word.listed

theorem OperandsSwapped.fpFormat (swapped : OperandsSwapped insn insn')
    (format : FpFormat cpu insn f64) : FpFormat cpu insn' f64 := by
  refine ⟨format.on, ?_⟩
  rw [rvFloatFormat, swapped.ffmt]
  exact format.format

theorem IsMinMax.swapped (host : mc.fpu.MinMaxNumeric) (word : IsMinMax insn)
    (format : FpFormat (m.cpus h) insn f64) (swapped : OperandsSwapped insn insn') :
    rvForcefeedInsn mc m h insn' = rvForcefeedInsn mc m h insn := by
  rw [(swapped.isMinMax word).forcefeed mc (swapped.fpFormat format), word.forcefeed mc format,
    swapped.rs1, swapped.rs2, swapped.rd, swapped.funct3, Bool.or_comm,
    rvMinMaxWritten_comm host]

/-- FMIN and FMAX do what they should, but for two zeros of the sign they do not choose. -/
theorem minMaxMeets_iff (mc : EmuConfig δ) (host : mc.fpu.MinMaxNumeric) (m : EmuMachine δ)
    (h : Nat) (insn : U32) (f64 : Bool) (word : IsMinMax insn)
    (format : FpFormat (m.cpus h) insn f64) :
    MinMaxMeets mc m h insn f64 ↔ ¬ZerosOfOtherSign (m.cpus h) insn f64 := by
  have executed := word.forcefeed mc format
  rw [← rvMinMaxWritten_iff host (m.feround h)]
  constructor
  · intro meets
    have result := meets.result
    rw [executed, EmuMachine.setCpu_same, rvFregWrite_same] at result
    exact result
  · intro written
    refine ⟨?_, ?_, fun insn' swapped => word.swapped host format swapped⟩
    · rw [executed, EmuMachine.setCpu_same, rvFregWrite_same, written]
    · rw [executed, EmuMachine.setCpu_same]
      simp only [rvFregWrite]
      split
      · rfl
      · exact (BitVec.or_zero).symm

end Instruction

/-! ### A host -/

/-- A host that orders numbers by sign and magnitude, and computes nothing else. -/
def orderingFpu : HostFpu :=
  { raisingFpu with
    binop32 := fun op _ f g => match op with
      | .fmin => (if Ieee.order f ≤ Ieee.order g then f else g, 0)
      | .fmax => (if Ieee.order f ≥ Ieee.order g then f else g, 0)
      | _ => (0, rvFflagsMask)
    binop64 := fun op _ f g => match op with
      | .fmin => (if Ieee.order f ≤ Ieee.order g then f else g, 0)
      | .fmax => (if Ieee.order f ≥ Ieee.order g then f else g, 0)
      | _ => (0, rvFflagsMask) }

theorem orderingFpu_numeric : orderingFpu.MinMaxNumeric where
  fmin32 _ _ _ comparable := (Ieee.Format.isMinimum_iff (by decide) comparable).mpr rfl
  fmax32 _ _ _ comparable := (Ieee.Format.isMaximum_iff (by decide) comparable).mpr rfl
  fmin64 _ _ _ comparable := (Ieee.Format.isMinimum_iff (by decide) comparable).mpr rfl
  fmax64 _ _ _ comparable := (Ieee.Format.isMaximum_iff (by decide) comparable).mpr rfl

def orderingConfig : EmuConfig Unit := { fpConfig with fpu := orderingFpu }

/-- A core with floating point on, whose registers are those given. -/
def minMaxMachine (fregs : BitVec 5 → U64) : EmuMachine Unit :=
  fpMachine () (fpCore 1 fregs (fun _ => 0) 0)

/-- FMIN.D of 1 and -2. -/
theorem minMaxMeets_iff_numbers : MinMaxMeets orderingConfig
    (minMaxMachine fun i => if i = 1 then 0x3FF0000000000000 else 0xC000000000000000) 0
    0x2a208053 true := by
  refine (minMaxMeets_iff orderingConfig orderingFpu_numeric _ 0 0x2a208053 true
    ⟨by decide, by decide, by decide⟩ ⟨by decide +kernel, by decide⟩).mpr ?_
  rintro ⟨left, right⟩
  exact absurd left (by decide +kernel)

/-- FMIN.D of two positive zeros gives a negative one. -/
theorem minMaxMeets_zeros :
    ¬∀ (mc : EmuConfig Unit) (m : EmuMachine Unit) (h : Nat) (insn : U32) (f64 : Bool),
      mc.fpu.MinMaxNumeric → IsMinMax insn → FpFormat (m.cpus h) insn f64 →
        MinMaxMeets mc m h insn f64 := by
  intro always
  have meets := always orderingConfig (minMaxMachine fun _ => 0) 0 0x2a208053 true
    orderingFpu_numeric ⟨by decide, by decide, by decide⟩ ⟨by decide +kernel, by decide⟩
  exact absurd meets.result (by decide +kernel)

end Riscmulator
