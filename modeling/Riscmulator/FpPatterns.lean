import Riscmulator.Outcomes
import Riscmulator.Lib.Ieee
import Riscmulator.Lib.Rvfd

/-! Bit patterns in the floating-point registers: boxed single-precision values, and
the classes of IEEE 754 patterns by their magnitude. -/

namespace Riscmulator

/-! ### Boxed values -/

/-- The upper half is all ones. -/
def Boxed (r : U64) : Prop := r >>> 32 = 0xFFFFFFFF

instance (r : U64) : Decidable (Boxed r) := inferInstanceAs (Decidable (_ = _))

theorem boxed_iff {r : U64} : Boxed r ↔ ∀ i, 32 ≤ i → i < 64 → r.getLsbD i = true := by
  have ones : ∀ i < 64, (0xFFFFFFFF : U64).getLsbD i = decide (i < 32) := by decide
  constructor
  · intro boxed i high inside
    have bits := congrArg (fun x : U64 => x.getLsbD (i - 32)) boxed
    rw [BitVec.getLsbD_ushiftRight, ones _ (by omega), Nat.add_sub_cancel' high,
      decide_eq_true (by omega)] at bits
    exact bits
  · intro bits
    apply BitVec.eq_of_getLsbD_eq
    intro i inside
    rw [BitVec.getLsbD_ushiftRight, ones i inside]
    by_cases low : i < 32
    · rw [bits (32 + i) (by omega) (by omega), decide_eq_true low]
    · rw [BitVec.getLsbD_of_ge r _ (by omega), decide_eq_false low]

theorem getLsbD_boxF32 (f : U32) {i : Nat} (inside : i < 64) :
    (boxF32 f).getLsbD i = (f.getLsbD i || decide (32 ≤ i)) := by
  have upper : ∀ i < 64, (0xFFFFFFFF00000000 : U64).getLsbD i = decide (32 ≤ i) := by decide
  rw [boxF32, BitVec.getLsbD_or, upper i inside, BitVec.getLsbD_setWidth, decide_eq_true inside,
    Bool.true_and, Bool.or_comm]

theorem lowF32_boxF32 (f : U32) : lowF32 (boxF32 f) = f := by
  simp [lowF32, boxF32]

theorem boxed_boxF32 (f : U32) : Boxed (boxF32 f) := by
  apply boxed_iff.mpr
  intro i high inside
  rw [getLsbD_boxF32 f inside, decide_eq_true high, Bool.or_true]

theorem boxF32_lowF32 {r : U64} (boxed : Boxed r) : boxF32 (lowF32 r) = r := by
  apply BitVec.eq_of_getLsbD_eq
  intro i inside
  rw [getLsbD_boxF32 _ inside, lowF32, BitVec.getLsbD_setWidth]
  by_cases high : 32 ≤ i
  · rw [boxed_iff.mp boxed i high inside, decide_eq_true high, Bool.or_true]
  · rw [decide_eq_true (by omega), decide_eq_false high, Bool.true_and, Bool.or_false]

theorem boxF32_inj {f g : U32} : boxF32 f = boxF32 g ↔ f = g := by
  constructor
  · intro same
    rw [← lowF32_boxF32 f, same, lowF32_boxF32]
  · exact congrArg boxF32

/-- The 32-bit operand that a register holds. -/
def unboxF32 (r : U64) : U32 := if Boxed r then lowF32 r else rvCanonicalNanF32

theorem unboxF32_boxF32 (f : U32) : unboxF32 (boxF32 f) = f := by
  rw [unboxF32, if_pos (boxed_boxF32 f), lowF32_boxF32]

theorem rvFregReadF32_boxed (cpu : RvCpu) (idx : BitVec 5) : Boxed (rvFregReadF32 cpu idx) := by
  simp only [rvFregReadF32]
  split
  · exact boxed_boxF32 _
  · next boxed => exact not_not.mp boxed

theorem lowF32_rvFregReadF32 (cpu : RvCpu) (idx : BitVec 5) :
    lowF32 (rvFregReadF32 cpu idx) = unboxF32 (cpu.fregs idx) := by
  by_cases boxed : Boxed (cpu.fregs idx)
  · have read : rvFregReadF32 cpu idx = cpu.fregs idx := if_neg (not_not.mpr boxed)
    rw [read, unboxF32, if_pos boxed]
  · have read : rvFregReadF32 cpu idx = boxF32 rvCanonicalNanF32 := if_pos boxed
    rw [read, lowF32_boxF32, unboxF32, if_neg boxed]

theorem rvFregReadAs_f32 (cpu : RvCpu) (idx : BitVec 5) :
    rvFregReadAs cpu false idx = boxF32 (unboxF32 (cpu.fregs idx)) := by
  rw [← lowF32_rvFregReadF32, boxF32_lowF32 (rvFregReadF32_boxed cpu idx)]
  rfl

theorem rvFregWrite_same (cpu : RvCpu) (idx : BitVec 5) (value : U64) :
    (rvFregWrite cpu idx value).fregs idx = value := Function.update_self _ _ _

/-! ### Classes -/

section Classes

theorem f32Exponent_toNat (f : U32) : (f32Exponent f).toNat = f.toNat / 2 ^ 23 % 2 ^ 8 := by
  rw [f32Exponent, BitVec.toNat_and, BitVec.toNat_ushiftRight, Nat.shiftRight_eq_div_pow]
  exact Nat.and_two_pow_sub_one_eq_mod _ 8

theorem f32Fraction_toNat (f : U32) : (f32Fraction f).toNat = f.toNat % 2 ^ 23 := by
  rw [f32Fraction, BitVec.toNat_and]
  exact Nat.and_two_pow_sub_one_eq_mod _ 23

theorem f64Exponent_toNat (f : U64) : (f64Exponent f).toNat = f.toNat / 2 ^ 52 % 2 ^ 11 := by
  rw [f64Exponent, BitVec.toNat_and, BitVec.toNat_ushiftRight, Nat.shiftRight_eq_div_pow]
  exact Nat.and_two_pow_sub_one_eq_mod _ 11

theorem f64Fraction_toNat (f : U64) : (f64Fraction f).toNat = f.toNat % 2 ^ 52 := by
  rw [f64Fraction, BitVec.toNat_and]
  exact Nat.and_two_pow_sub_one_eq_mod _ 52

theorem isnanF32_eq (f : U32) : isnanF32 f = Ieee.binary32.isNan f := by
  have magnitude : Ieee.magnitude f = f.toNat % 2 ^ 31 := BitVec.toNat_setWidth _ _
  have infinity : Ieee.binary32.infinity = 255 * 2 ^ 23 := rfl
  have top : (0xff : U32).toNat = 255 := rfl
  have zero : (0 : U32).toNat = 0 := rfl
  rw [Bool.eq_iff_iff]
  simp only [isnanF32, Ieee.Format.isNan, Bool.and_eq_true, decide_eq_true_eq, ne_eq,
    ← BitVec.toNat_inj, f32Exponent_toNat, f32Fraction_toNat, magnitude, infinity, top, zero]
  omega

theorem isnanF64_eq (f : U64) : isnanF64 f = Ieee.binary64.isNan f := by
  have magnitude : Ieee.magnitude f = f.toNat % 2 ^ 63 := BitVec.toNat_setWidth _ _
  have infinity : Ieee.binary64.infinity = 2047 * 2 ^ 52 := rfl
  have top : (0x7ff : U64).toNat = 2047 := rfl
  have zero : (0 : U64).toNat = 0 := rfl
  rw [Bool.eq_iff_iff]
  simp only [isnanF64, Ieee.Format.isNan, Bool.and_eq_true, decide_eq_true_eq, ne_eq,
    ← BitVec.toNat_inj, f64Exponent_toNat, f64Fraction_toNat, magnitude, infinity, top, zero]
  omega

theorem isZeroF32_iff (f : U32) : f &&& 0x7FFFFFFF = 0 ↔ Ieee.magnitude f = 0 := by
  have masked : (f &&& 0x7FFFFFFF).toNat = f.toNat % 2 ^ 31 := by
    rw [BitVec.toNat_and]
    exact Nat.and_two_pow_sub_one_eq_mod _ 31
  rw [← BitVec.toNat_inj, masked]
  exact Iff.of_eq (congrArg (· = 0) (BitVec.toNat_setWidth _ f).symm)

theorem isZeroF64_iff (f : U64) : f &&& 0x7FFFFFFFFFFFFFFF = 0 ↔ Ieee.magnitude f = 0 := by
  have masked : (f &&& 0x7FFFFFFFFFFFFFFF).toNat = f.toNat % 2 ^ 63 := by
    rw [BitVec.toNat_and]
    exact Nat.and_two_pow_sub_one_eq_mod _ 63
  rw [← BitVec.toNat_inj, masked]
  exact Iff.of_eq (congrArg (· = 0) (BitVec.toNat_setWidth _ f).symm)

/-- A NaN is signaling if its upper bits are those of infinity and the bits below the
quiet bit are not all clear. -/
theorem rvIsSnan_f32 (r : U64) : rvIsSnan r false = Ieee.binary32.isSignaling (lowF32 r) := by
  have upper : (lowF32 r &&& 0x7FC00000).toNat = (lowF32 r).toNat / 2 ^ 22 % 2 ^ 9 * 2 ^ 22 := by
    rw [BitVec.toNat_and]
    exact Ieee.and_field _ 9 22
  have lower : (lowF32 r &&& 0x003FFFFF).toNat = (lowF32 r).toNat % 2 ^ 22 := by
    rw [BitVec.toNat_and]
    exact Nat.and_two_pow_sub_one_eq_mod _ 22
  have top : (0x7F800000 : U32).toNat = 255 * 2 ^ 23 := rfl
  have zero : (0 : U32).toNat = 0 := rfl
  have magnitude : Ieee.magnitude (lowF32 r) = (lowF32 r).toNat % 2 ^ 31 :=
    BitVec.toNat_setWidth _ _
  have infinity : Ieee.binary32.infinity = 255 * 2 ^ 23 := rfl
  have quiet : Ieee.binary32.fraction - 1 = 22 := rfl
  rw [Bool.eq_iff_iff]
  simp only [rvIsSnan, Ieee.Format.isSignaling, Ieee.Format.isNan, Bool.and_eq_true,
    Bool.not_eq_true', decide_eq_true_eq, decide_eq_false_iff_not, ne_eq, ← BitVec.toNat_inj,
    if_neg Bool.false_ne_true, Ieee.getLsbD_eq_div_mod, upper, lower, top, zero, magnitude,
    infinity, quiet]
  omega

theorem rvIsSnan_f64 (r : U64) : rvIsSnan r true = Ieee.binary64.isSignaling r := by
  have upper : (r &&& 0x7FF8000000000000).toNat = r.toNat / 2 ^ 51 % 2 ^ 12 * 2 ^ 51 := by
    rw [BitVec.toNat_and]
    exact Ieee.and_field _ 12 51
  have lower : (r &&& 0x0007FFFFFFFFFFFF).toNat = r.toNat % 2 ^ 51 := by
    rw [BitVec.toNat_and]
    exact Nat.and_two_pow_sub_one_eq_mod _ 51
  have top : (0x7FF0000000000000 : U64).toNat = 2047 * 2 ^ 52 := rfl
  have zero : (0 : U64).toNat = 0 := rfl
  have magnitude : Ieee.magnitude r = r.toNat % 2 ^ 63 := BitVec.toNat_setWidth _ _
  have infinity : Ieee.binary64.infinity = 2047 * 2 ^ 52 := rfl
  have quiet : Ieee.binary64.fraction - 1 = 51 := rfl
  rw [Bool.eq_iff_iff]
  simp only [rvIsSnan, Ieee.Format.isSignaling, Ieee.Format.isNan, Bool.and_eq_true,
    Bool.not_eq_true', decide_eq_true_eq, decide_eq_false_iff_not, ne_eq, ← BitVec.toNat_inj,
    if_true, Ieee.getLsbD_eq_div_mod, upper, lower, top, zero, magnitude, infinity, quiet]
  omega

end Classes

/-! ### Encoded words -/

theorem rvFloatFormat_of_fmt {insn : U32} {double : Bool}
    (fmt : Rvfd.fmt insn = Rvfd.fmtCode double) : rvFloatFormat insn = some double := by
  have same : rvInsnFfmt insn = Rvfd.fmtCode double := fmt
  rw [rvFloatFormat, same]
  cases double <;> rfl

theorem rvFloatFormat_none {insn : U32} :
    rvFloatFormat insn = none ↔ ∀ double, Rvfd.fmt insn ≠ Rvfd.fmtCode double := by
  constructor
  · intro unsupported double fmt
    rw [rvFloatFormat_of_fmt fmt] at unsupported
    cases unsupported
  · intro other
    have known : ∀ fmt : BitVec 2, fmt ≠ 0 → fmt ≠ 1 → fmt = 2 ∨ fmt = 3 := by decide
    have upper : rvInsnFfmt insn = 2 ∨ rvInsnFfmt insn = 3 := known _ (other false) (other true)
    rw [rvFloatFormat]
    rcases upper with fmt | fmt <;> rw [fmt] <;> rfl

section Words

variable {δ : Type} {mc : EmuConfig δ} {m : EmuMachine δ} {h : Nat} {insn : U32} {f64 : Bool}

theorem rvForcefeedInsn_opFp (form : rvOpMajOf insn = some .opFp) :
    rvForcefeedInsn mc m h insn = rvFloatOpFp mc m h insn := by
  simp only [rvForcefeedInsn, form]

theorem rvForcefeedInsn_compare (form : rvOpMajOf insn = some .opFp)
    (format : FpFormat (m.cpus h) insn f64) (op : rvInsnFunct5 insn = 0b10100) :
    rvForcefeedInsn mc m h insn = (rvFloatCompare mc (m.cpus h) insn f64).elim
      (rvDoIillegal mc m h insn) (m.setCpu h) := by
  rw [rvForcefeedInsn_opFp form, rvFloatOpFp]
  simp only [format.on, format.format, if_pos op, Bool.not_true, Bool.false_eq_true, if_false]
  cases rvFloatCompare mc (m.cpus h) insn f64 <;> rfl

theorem rvForcefeedInsn_sgnj (form : rvOpMajOf insn = some .opFp)
    (format : FpFormat (m.cpus h) insn f64) (op : rvInsnFunct5 insn = 0b00100) :
    rvForcefeedInsn mc m h insn = (rvFloatSgnj (m.cpus h) insn f64).elim
      (rvDoIillegal mc m h insn) (m.setCpu h) := by
  have compare : rvInsnFunct5 insn ≠ 0b10100 := by
    rw [op]
    decide
  rw [rvForcefeedInsn_opFp form, rvFloatOpFp]
  simp only [format.on, format.format, if_neg compare, if_pos op, Bool.not_true,
    Bool.false_eq_true, if_false]
  cases rvFloatSgnj (m.cpus h) insn f64 <;> rfl

/-- An operation with a rounding mode, or a move. -/
theorem rvForcefeedInsn_rounded (form : rvOpMajOf insn = some .opFp)
    (format : FpFormat (m.cpus h) insn f64)
    (rounded : rvInsnFunct5 insn ∉ [0b10100#5, 0b00100#5, 0b00101#5]) {out : RvCpu × FpFlags}
    (computed : rvFloatRounded mc (m.cpus h) insn (rvFloatEnv mc (m.cpus h) insn (m.feround h))
      f64 = some out) :
    rvForcefeedInsn mc m h insn =
      rvFloatFinish (m.setFeround h (rvFloatEnv mc (m.cpus h) insn (m.feround h)).round) h
        (rvFloatEnv mc (m.cpus h) insn (m.feround h)) out := by
  simp only [List.mem_cons, List.not_mem_nil, or_false, not_or] at rounded
  rw [rvForcefeedInsn_opFp form,
    rvFloatOpFp_rounded mc format rounded.1 rounded.2.1 rounded.2.2 rfl, computed, Option.elim_some]

/-- The fused multiply-adds. -/
def IsFused (insn : U32) : Prop :=
  rvOpMajOf insn ∈ [some .madd, some .nmadd, some .msub, some .nmsub]

theorem rvForcefeedInsn_fmadd (form : IsFused insn) :
    rvForcefeedInsn mc m h insn = rvFloatFmadd mc m h insn := by
  simp only [IsFused, List.mem_cons, List.not_mem_nil, or_false] at form
  rcases form with form | form | form | form <;> simp only [rvForcefeedInsn, form]

theorem rvForcefeedInsn_fused (form : IsFused insn) (format : FpFormat (m.cpus h) insn f64) :
    rvForcefeedInsn mc m h insn =
      rvFloatFinish (m.setFeround h (rvFloatEnv mc (m.cpus h) insn (m.feround h)).round) h
        (rvFloatEnv mc (m.cpus h) insn (m.feround h))
        (rvFloatFused mc (m.cpus h) insn (rvFloatEnv mc (m.cpus h) insn (m.feround h)) f64) := by
  rw [rvForcefeedInsn_fmadd form]
  simp only [rvFloatFmadd, format.on, format.format, Bool.not_true, Bool.false_eq_true, if_false]

theorem rvFloatFinish_fregs (m : EmuMachine δ) (h : Nat) (env : FpEnv) (out : RvCpu × FpFlags) :
    ((rvFloatFinish m h env out).cpus h).fregs = out.1.fregs := by
  rw [rvFloatFinish, EmuMachine.setCpu_same]
  rfl

end Words

end Riscmulator
