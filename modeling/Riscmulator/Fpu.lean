import Riscmulator.Cpu

/-! Floating-point arithmetic of the host and of SoftFloat, as parameters: each
operation is a function from operand bit patterns to a result bit pattern and
the exception flags it raises, in the layout of `fflags`. -/

namespace Riscmulator

/-- Host rounding directions (`FE_TONEAREST` and so on). -/
inductive FeRound
  | tonearest | towardzero | downward | upward
  deriving DecidableEq, Repr

inductive SoftfloatRound
  | nearEven | minMag | min | max | nearMaxMag
  deriving DecidableEq, Repr

inductive FpBinop
  | add | sub | mul | div | fmin | fmax
  deriving DecidableEq, Repr

inductive FpCompare
  | eq | lt | le
  deriving DecidableEq, Repr

/-- Integer types that floats are converted from and to. -/
inductive FpInt
  | u64 | i64 | u32 | i32
  deriving DecidableEq, Repr

/-- The host's C floating-point operations. -/
structure HostFpu where
  binop32 : FpBinop → FeRound → U32 → U32 → U32 × U64
  binop64 : FpBinop → FeRound → U64 → U64 → U64 × U64
  compare32 : FpCompare → U32 → U32 → Bool × U64
  compare64 : FpCompare → U64 → U64 → Bool × U64
  sqrt32 : FeRound → U32 → U32 × U64
  sqrt64 : FeRound → U64 → U64 × U64
  fma32 : FeRound → U32 → U32 → U32 → U32 × U64
  fma64 : FeRound → U64 → U64 → U64 → U64 × U64
  f32ToF64 : U32 → U64 × U64
  f64ToF32 : FeRound → U64 → U32 × U64
  intToF32 : FpInt → FeRound → U64 → U32 × U64
  intToF64 : FpInt → FeRound → U64 → U64 × U64
  rint : FeRound → U64 → U64 × U64
  f64ToInt : FpInt → U64 → U64 × U64
  /-- The flags that `isinf`, `isnan` and their siblings raise for an operand. -/
  classify32 : U32 → U64
  classify64 : U64 → U64
  deriving Inhabited

/-- Berkeley SoftFloat, used for rounding modes the host lacks. -/
structure Softfloat where
  binop32 : FpBinop → SoftfloatRound → U32 → U32 → U32 × U64
  binop64 : FpBinop → SoftfloatRound → U64 → U64 → U64 × U64
  sqrt32 : SoftfloatRound → U32 → U32 × U64
  sqrt64 : SoftfloatRound → U64 → U64 × U64
  mulAdd32 : SoftfloatRound → U32 → U32 → U32 → U32 × U64
  mulAdd64 : SoftfloatRound → U64 → U64 → U64 → U64 × U64
  f64ToF32 : SoftfloatRound → U64 → U32 × U64
  intToF32 : FpInt → SoftfloatRound → U64 → U32 × U64
  intToF64 : FpInt → SoftfloatRound → U64 → U64 × U64
  f32ToInt : FpInt → SoftfloatRound → U32 → U64 × U64
  f64ToInt : FpInt → SoftfloatRound → U64 → U64 × U64
  deriving Inhabited

/-! ### Classification of IEEE 754 bit patterns (`isnan` and its siblings) -/

def f32Exponent (f : U32) : U32 := (f >>> 23) &&& 0xff
def f32Fraction (f : U32) : U32 := f &&& 0x007fffff
def f64Exponent (f : U64) : U64 := (f >>> 52) &&& 0x7ff
def f64Fraction (f : U64) : U64 := f &&& 0x000fffffffffffff

def isnanF32 (f : U32) : Bool := f32Exponent f = 0xff && f32Fraction f ≠ 0
def isinfF32 (f : U32) : Bool := f32Exponent f = 0xff && f32Fraction f = 0
def iszeroF32 (f : U32) : Bool := f32Exponent f = 0 && f32Fraction f = 0
def issubnormalF32 (f : U32) : Bool := f32Exponent f = 0 && f32Fraction f ≠ 0
def isnormalF32 (f : U32) : Bool := f32Exponent f ≠ 0 && f32Exponent f ≠ 0xff
def signbitF32 (f : U32) : Bool := f.getLsbD 31

def isnanF64 (f : U64) : Bool := f64Exponent f = 0x7ff && f64Fraction f ≠ 0
def isinfF64 (f : U64) : Bool := f64Exponent f = 0x7ff && f64Fraction f = 0
def iszeroF64 (f : U64) : Bool := f64Exponent f = 0 && f64Fraction f = 0
def issubnormalF64 (f : U64) : Bool := f64Exponent f = 0 && f64Fraction f ≠ 0
def isnormalF64 (f : U64) : Bool := f64Exponent f ≠ 0 && f64Exponent f ≠ 0x7ff
def signbitF64 (f : U64) : Bool := f.getLsbD 63

end Riscmulator
