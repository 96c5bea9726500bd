import Riscmulator.Insn

/-! The F and D extensions, from `rv_impl/float.c`, over the host and SoftFloat
operations of the machine's configuration. -/

namespace Riscmulator

variable {δ : Type}

def rvFflagsNvBit : Nat := 4
def rvFflagsNxBit : Nat := 0

def rvCanonicalNanF32 : U32 := 0x7FC00000
def rvCanonicalNanF64 : U64 := 0x7FF8000000000000

def canonNanF32 (f : U32) : U32 := if isnanF32 f then rvCanonicalNanF32 else f
def canonNanF64 (f : U64) : U64 := if isnanF64 f then rvCanonicalNanF64 else f

/-- A `union rv_freg` initialised to all ones whose low word is then written. -/
def boxF32 (f : U32) : U64 := 0xFFFFFFFF00000000 ||| f.setWidth 64

def lowF32 (r : U64) : U32 := r.setWidth 32

/-- `rv_freg_read_f32`: read with the NaN-boxing check. -/
def rvFregReadF32 (cpu : RvCpu) (idx : BitVec 5) : U64 :=
  let r := rvFregRead cpu idx
  if (r >>> 32) ≠ 0xFFFFFFFF then boxF32 rvCanonicalNanF32 else r

def rvFregReadAs (cpu : RvCpu) (f64 : Bool) (idx : BitVec 5) : U64 :=
  if f64 then rvFregRead cpu idx else rvFregReadF32 cpu idx

def rvIsSnan (r : U64) (f64 : Bool) : Bool :=
  if f64 then
    (r &&& 0x7FF8000000000000) = 0x7FF0000000000000 && (r &&& 0x0007FFFFFFFFFFFF) ≠ 0
  else
    (lowF32 r &&& 0x7FC00000) = 0x7F800000 && (lowF32 r &&& 0x003FFFFF) ≠ 0

/-! ### Rounding modes and flags -/

def rvFrmToSoftfloat (frm : BitVec 3) : SoftfloatRound :=
  match frm with
  | 0 => .nearEven
  | 1 => .minMag
  | 2 => .min
  | 3 => .max
  | 4 => .nearMaxMag
  | _ => .nearEven

/-- The rounding mode of an instruction, read from `fcsr` when it is dynamic. -/
def rvEffectiveFrm (cpu : RvCpu) (insn : U32) : BitVec 3 :=
  if rvInsnFunct3 insn = 7 then (cpu.csr.fcsr >>> rvFcsrFrmBaseBit).setWidth 3
  else rvInsnFunct3 insn

/-- `apply_frm`: the host rounding mode afterwards, and whether the host cannot
round as asked. A reserved mode leaves the host's mode as it was. -/
def applyFrm (cpu : RvCpu) (insn : U32) (current : FeRound) : FeRound × Bool :=
  match rvEffectiveFrm cpu insn with
  | 0 => (.tonearest, false)
  | 1 => (.towardzero, false)
  | 2 => (.downward, false)
  | 3 => (.upward, false)
  | 4 => (.tonearest, true)
  | _ => (current, true)

/-- How one operation computes: the host rounding mode, whether SoftFloat
takes over, and SoftFloat's rounding mode. -/
structure FpEnv where
  round : FeRound
  soft : Bool
  softRound : SoftfloatRound

/-- Exception flags raised in the host's environment and in SoftFloat's. -/
structure FpFlags where
  host : U64
  soft : U64

def FpFlags.ofHost (flags : U64) : FpFlags := ⟨flags, 0⟩
def FpFlags.ofSoft (flags : U64) : FpFlags := ⟨0, flags⟩
def FpFlags.none : FpFlags := ⟨0, 0⟩

/-- Accrue flags into `fcsr`, as `check_fflags` and its SoftFloat sibling do. -/
def rvAccrue (cpu : RvCpu) (flags : U64) : RvCpu :=
  cpu.withCsr { cpu.csr with fcsr := cpu.csr.fcsr ||| (flags &&& rvFflagsMask) }

/-! ### Arithmetic -/

/-- The common body of `rv_float_add` and its siblings. -/
def rvFloatBinop (mc : EmuConfig δ) (op : FpBinop) (cpu : RvCpu) (insn : U32) (env : FpEnv)
    (f64 : Bool) : RvCpu × FpFlags :=
  let lhs := rvFregReadAs cpu f64 (rvInsnRs1 insn)
  let rhs := rvFregReadAs cpu f64 (rvInsnRs2 insn)
  let write (res : U64) := rvFregWrite cpu (rvInsnRd insn) res
  match env.soft, f64 with
  | true, true =>
      let out := mc.softfloat.binop64 op env.softRound lhs rhs
      (write out.1, .ofSoft out.2)
  | true, false =>
      let out := mc.softfloat.binop32 op env.softRound (lowF32 lhs) (lowF32 rhs)
      (write (boxF32 out.1), .ofSoft out.2)
  | false, true =>
      let out := mc.fpu.binop64 op env.round lhs rhs
      (write (canonNanF64 out.1), .ofHost out.2)
  | false, false =>
      let out := mc.fpu.binop32 op env.round (lowF32 lhs) (lowF32 rhs)
      (write (boxF32 (canonNanF32 out.1)), .ofHost out.2)

def rvFloatAdd (mc : EmuConfig δ) := rvFloatBinop mc .add
def rvFloatSub (mc : EmuConfig δ) := rvFloatBinop mc .sub
def rvFloatMul (mc : EmuConfig δ) := rvFloatBinop mc .mul
def rvFloatDiv (mc : EmuConfig δ) := rvFloatBinop mc .div

def rvFloatSqrt (mc : EmuConfig δ) (cpu : RvCpu) (insn : U32) (env : FpEnv) (f64 : Bool) :
    RvCpu × FpFlags :=
  let arg := rvFregReadAs cpu f64 (rvInsnRs1 insn)
  let write (res : U64) := rvFregWrite cpu (rvInsnRd insn) res
  match env.soft, f64 with
  | true, true =>
      let out := mc.softfloat.sqrt64 env.softRound arg
      (write (canonNanF64 out.1), .ofSoft out.2)
  | true, false =>
      let out := mc.softfloat.sqrt32 env.softRound (lowF32 arg)
      (write (boxF32 (canonNanF32 out.1)), .ofSoft out.2)
  | false, true =>
      let out := mc.fpu.sqrt64 env.round arg
      (write (canonNanF64 out.1), .ofHost out.2)
  | false, false =>
      let out := mc.fpu.sqrt32 env.round (lowF32 arg)
      (write (boxF32 (canonNanF32 out.1)), .ofHost out.2)

/-- `rv_float_ftof`. The source format comes from `rs2` alone. -/
def rvFloatFtof (mc : EmuConfig δ) (cpu : RvCpu) (insn : U32) (env : FpEnv) (f64 : Bool) :
    RvCpu × FpFlags :=
  let srcF64 := rvInsnRs2 insn = 1
  let arg := rvFregReadAs cpu srcF64 (rvInsnRs1 insn)
  let write (res : U64) := rvFregWrite cpu (rvInsnRd insn) res
  if f64 then
    let out := mc.fpu.f32ToF64 (lowF32 arg)
    (write (canonNanF64 out.1), .ofHost out.2)
  else if env.soft then
    let out := mc.softfloat.f64ToF32 env.softRound arg
    (write (boxF32 (canonNanF32 out.1)), .ofSoft out.2)
  else
    let out := mc.fpu.f64ToF32 env.round arg
    (write (boxF32 (canonNanF32 out.1)), .ofHost out.2)

def rvFpIntOf (rs2 : BitVec 5) : FpInt :=
  match rs2.getLsbD 0, rs2.getLsbD 1 with
  | true, true => .u64
  | false, true => .i64
  | true, false => .u32
  | false, false => .i32

def rvFloatXtof (mc : EmuConfig δ) (cpu : RvCpu) (insn : U32) (env : FpEnv) (f64 : Bool) :
    RvCpu × FpFlags :=
  let ty := rvFpIntOf (rvInsnRs2 insn)
  let arg := rvXregRead cpu (rvInsnRs1 insn)
  let write (res : U64) := rvFregWrite cpu (rvInsnRd insn) res
  match env.soft, f64 with
  | true, true =>
      let out := mc.softfloat.intToF64 ty env.softRound arg
      (write out.1, .ofSoft out.2)
  | true, false =>
      let out := mc.softfloat.intToF32 ty env.softRound arg
      (write (boxF32 out.1), .ofSoft out.2)
  | false, true =>
      let out := mc.fpu.intToF64 ty env.round arg
      (write out.1, .ofHost out.2)
  | false, false =>
      let out := mc.fpu.intToF32 ty env.round arg
      (write (boxF32 out.1), .ofHost out.2)

/-- Bounds of `FTOX_HELPER` for an integer type: smallest and largest value, and
the doubles `lo` (inclusive) and `hi` (exclusive). -/
def ftoxBounds : FpInt → U64 × U64 × U64 × U64
  | .u64 => (0, 0xFFFFFFFFFFFFFFFF, 0, 0x43F0000000000000)
  | .i64 => (0x8000000000000000, 0x7FFFFFFFFFFFFFFF, 0xC3E0000000000000, 0x43E0000000000000)
  | .u32 => (0, 0xFFFFFFFF, 0, 0x41F0000000000000)
  | .i32 => (0xFFFFFFFF80000000, 0x7FFFFFFF, 0xC1E0000000000000, 0x41E0000000000000)

/-- `FTOX_HELPER` on a double with the flags its computation has raised. -/
def ftoxHelper (mc : EmuConfig δ) (round : FeRound) (ty : FpInt) (isNan : Bool)
    (value flags : U64) : U64 × U64 :=
  let (minv, maxv, lo, hi) := ftoxBounds ty
  if isNan then (maxv, flags ||| bit rvFflagsNvBit)
  else
    let rv := mc.fpu.rint round value
    let below := mc.fpu.compare64 .lt rv.1 hi
    let above := mc.fpu.compare64 .le lo rv.1
    let flags := flags ||| rv.2 ||| below.2
    if !below.1 || !above.1 then
      let neg := mc.fpu.compare64 .lt rv.1 0
      -- The inexact flag of `rint` is cleared when the value is out of range.
      ((if neg.1 then minv else maxv),
        ((flags ||| above.2 ||| neg.2) &&& ~~~bit rvFflagsNxBit) ||| bit rvFflagsNvBit)
    else
      let out := mc.fpu.f64ToInt ty rv.1
      (out.1, flags ||| above.2 ||| out.2)

def rvFloatFtox (mc : EmuConfig δ) (cpu : RvCpu) (insn : U32) (env : FpEnv) (f64 : Bool) :
    RvCpu × FpFlags :=
  let ty := rvFpIntOf (rvInsnRs2 insn)
  let arg := rvFregReadAs cpu f64 (rvInsnRs1 insn)
  let out : U64 × FpFlags :=
    match env.soft, f64 with
    | true, true =>
        let r := mc.softfloat.f64ToInt ty env.softRound arg
        (r.1, .ofSoft r.2)
    | true, false =>
        let r := mc.softfloat.f32ToInt ty env.softRound (lowF32 arg)
        (r.1, .ofSoft r.2)
    | false, true =>
        let r := ftoxHelper mc env.round ty (isnanF64 arg) arg 0
        (r.1, .ofHost r.2)
    | false, false =>
        let wide := mc.fpu.f32ToF64 (lowF32 arg)
        let r := ftoxHelper mc env.round ty (isnanF32 (lowF32 arg)) wide.1
          (if isnanF32 (lowF32 arg) then 0 else wide.2)
        (r.1, .ofHost r.2)
  -- 32-bit results are sign-extended, unsigned ones too.
  let res :=
    match ty with
    | .u64 | .i64 => out.1
    | .u32 | .i32 => sext32 out.1
  (rvXregWrite cpu (rvInsnRd insn) res, out.2)

def rvFclass (isinf iszero isnormal issubnormal isnan issnan signbit : Bool) : U64 :=
  let pick (c : Bool) (neg pos : Nat) : U64 :=
    if c then (if signbit then bit neg else bit pos) else 0
  pick isinf 0 7 ||| pick iszero 3 4 ||| pick isnormal 1 6 ||| pick issubnormal 2 5 |||
    (if issnan then bit 8 else if isnan then bit 9 else 0)

def rvFloatMvxfFclass (mc : EmuConfig δ) (cpu : RvCpu) (insn : U32) (f64 : Bool) :
    RvCpu × FpFlags :=
  let isClass := rvInsnFunct3 insn = 1
  let arg :=
    if isClass ∧ !f64 then rvFregReadF32 cpu (rvInsnRs1 insn)
    else rvFregRead cpu (rvInsnRs1 insn)
  let f := lowF32 arg
  let res :=
    if isClass then
      if f64 then
        rvFclass (isinfF64 arg) (iszeroF64 arg) (isnormalF64 arg) (issubnormalF64 arg)
          (isnanF64 arg) (rvIsSnan arg true) (signbitF64 arg)
      else
        rvFclass (isinfF32 f) (iszeroF32 f) (isnormalF32 f) (issubnormalF32 f)
          (isnanF32 f) (rvIsSnan arg false) (signbitF32 f)
    else if f64 then arg
    else f.signExtend 64
  let flags : U64 :=
    if isClass then (if f64 then mc.fpu.classify64 arg else mc.fpu.classify32 f) else 0
  (rvXregWrite cpu (rvInsnRd insn) res, .ofHost flags)

def rvFloatMvfx (cpu : RvCpu) (insn : U32) (f64 : Bool) : RvCpu × FpFlags :=
  let arg := rvXregRead cpu (rvInsnRs1 insn)
  let res := if f64 then arg else boxF32 (lowF32 arg)
  (rvFregWrite cpu (rvInsnRd insn) res, .none)

/-! ### Operations without a rounding mode -/

/-- FEQ, FLT and FLE; `none` is an illegal instruction. -/
def rvFloatCompare (mc : EmuConfig δ) (cpu : RvCpu) (insn : U32) (f64 : Bool) : Option RvCpu :=
  let lhs := rvFregReadAs cpu f64 (rvInsnRs1 insn)
  let rhs := rvFregReadAs cpu f64 (rvInsnRs2 insn)
  let compare (op : FpCompare) : RvCpu :=
    let out :=
      if f64 then mc.fpu.compare64 op lhs rhs
      else mc.fpu.compare32 op (lowF32 lhs) (lowF32 rhs)
    rvAccrue (rvXregWrite cpu (rvInsnRd insn) (if out.1 then 1 else 0)) out.2
  match rvInsnFunct3 insn with
  | 2 => some (compare .eq)
  | 1 => some (compare .lt)
  | 0 => some (compare .le)
  | _ => none

/-- FSGNJ, FSGNJN and FSGNJX; `none` is an illegal instruction. -/
def rvFloatSgnj (cpu : RvCpu) (insn : U32) (f64 : Bool) : Option RvCpu :=
  let lhs := rvFregReadAs cpu f64 (rvInsnRs1 insn)
  let rhs := rvFregReadAs cpu f64 (rvInsnRs2 insn)
  let res := if f64 then lhs else boxF32 (lowF32 lhs)
  let signBit := if f64 then bit 63 else bit 31
  let write (res : U64) := some (rvFregWrite cpu (rvInsnRd insn) res)
  match rvInsnFunct3 insn with
  | 0 => write ((res &&& ~~~signBit) ||| (rhs &&& signBit))
  | 1 => write ((res &&& ~~~signBit) ||| (~~~rhs &&& signBit))
  | 2 => write (res ^^^ (rhs &&& signBit))
  | _ => none

/-- The result of FMIN and FMAX; `none` where the inner `switch` rejects `funct3`. -/
def rvFloatMinMaxResult (mc : EmuConfig δ) (round : FeRound) (insn : U32) (f64 : Bool)
    (lhs rhs : U64) : Option U64 :=
  let lhsNan := if f64 then isnanF64 lhs else isnanF32 (lowF32 lhs)
  let rhsNan := if f64 then isnanF64 rhs else isnanF32 (lowF32 rhs)
  let isMin := rvInsnFunct3 insn = 0
  let bothZeroF32 :=
    !f64 && (lowF32 lhs &&& 0x7FFFFFFF) = 0 && (lowF32 rhs &&& 0x7FFFFFFF) = 0
  let bothZeroF64 :=
    f64 && (lhs &&& 0x7FFFFFFFFFFFFFFF) = 0 && (rhs &&& 0x7FFFFFFFFFFFFFFF) = 0
  let host (op : FpBinop) : U64 :=
    if f64 then (mc.fpu.binop64 op round lhs rhs).1
    else boxF32 (mc.fpu.binop32 op round (lowF32 lhs) (lowF32 rhs)).1
  if lhsNan && rhsNan then some (if f64 then rvCanonicalNanF64 else boxF32 rvCanonicalNanF32)
  else if lhsNan then some rhs
  else if rhsNan then some lhs
  else if bothZeroF32 then some (boxF32 (if isMin then 0x80000000 else 0x00000000))
  else if bothZeroF64 then some (if isMin then 0x8000000000000000 else 0)
  else
    match rvInsnFunct3 insn with
    | 0 => some (host .fmin)
    | 1 => some (host .fmax)
    | _ => none

/-- FMIN and FMAX: the core afterwards, and whether the word is illegal. The
NV flag of a signaling operand is set before the word is rejected. -/
def rvFloatMinMax (mc : EmuConfig δ) (cpu : RvCpu) (round : FeRound) (insn : U32) (f64 : Bool) :
    RvCpu × Bool :=
  let lhs := rvFregReadAs cpu f64 (rvInsnRs1 insn)
  let rhs := rvFregReadAs cpu f64 (rvInsnRs2 insn)
  let cpu :=
    if rvIsSnan lhs f64 || rvIsSnan rhs f64 then rvAccrue cpu (bit rvFflagsNvBit) else cpu
  match rvFloatMinMaxResult mc round insn f64 lhs rhs with
  | none => (cpu, true)
  | some res =>
      if rvInsnFunct3 insn > 1 then (cpu, true)
      else (rvFregWrite cpu (rvInsnRd insn) res, false)

/-! ### The two entry points -/

/-- The operations that use the rounding mode; `none` is an illegal instruction. -/
def rvFloatRounded (mc : EmuConfig δ) (cpu : RvCpu) (insn : U32) (env : FpEnv) (f64 : Bool) :
    Option (RvCpu × FpFlags) :=
  match rvInsnFunct5 insn with
  | 0b00000 => some (rvFloatAdd mc cpu insn env f64)
  | 0b00001 => some (rvFloatSub mc cpu insn env f64)
  | 0b00010 => some (rvFloatMul mc cpu insn env f64)
  | 0b00011 => some (rvFloatDiv mc cpu insn env f64)
  | 0b01011 => some (rvFloatSqrt mc cpu insn env f64)
  | 0b01000 => some (rvFloatFtof mc cpu insn env f64)
  | 0b11010 => some (rvFloatXtof mc cpu insn env f64)
  | 0b11000 => some (rvFloatFtox mc cpu insn env f64)
  | 0b11100 => some (rvFloatMvxfFclass mc cpu insn f64)
  | 0b11110 => some (rvFloatMvfx cpu insn f64)
  | _ => none

/-- The operand format; `none` where it is not supported. -/
def rvFloatFormat (insn : U32) : Option Bool :=
  match rvInsnFfmt insn with
  | 0 => some false
  | 1 => some true
  | _ => none

def rvFloatEnv (mc : EmuConfig δ) (cpu : RvCpu) (insn : U32) (current : FeRound) : FpEnv :=
  let frm := applyFrm cpu insn current
  { round := frm.1
    soft := mc.rvFloatExactMath && frm.2
    softRound := rvFrmToSoftfloat (rvInsnFunct3 insn) }

def EmuMachine.setFeround (m : EmuMachine δ) (h : Nat) (round : FeRound) : EmuMachine δ :=
  { m with feround := Function.update m.feround h round }

/-- Write back an operation's core and accrue the flags of whoever computed. -/
def rvFloatFinish (m : EmuMachine δ) (h : Nat) (env : FpEnv) (out : RvCpu × FpFlags) :
    EmuMachine δ :=
  m.setCpu h (rvAccrue out.1 (if env.soft then out.2.soft else out.2.host))

def rvFloatOpFp (mc : EmuConfig δ) (m : EmuMachine δ) (h : Nat) (insn : U32) : EmuMachine δ :=
  let cpu := m.cpus h
  let illegal := rvDoIillegal mc m h insn
  let orIllegal : Option RvCpu → EmuMachine δ
    | none => illegal
    | some cpu => m.setCpu h cpu
  if !rvCheckXs cpu.csr.mstatus rvStatusFsBaseBit then illegal
  else
    match rvFloatFormat insn with
    | none => illegal
    | some f64 =>
        if rvInsnFunct5 insn = 0b10100 then orIllegal (rvFloatCompare mc cpu insn f64)
        else if rvInsnFunct5 insn = 0b00100 then orIllegal (rvFloatSgnj cpu insn f64)
        else if rvInsnFunct5 insn = 0b00101 then
          let out := rvFloatMinMax mc cpu (m.feround h) insn f64
          if out.2 then rvDoIillegal mc (m.setCpu h out.1) h insn else m.setCpu h out.1
        else
          let env := rvFloatEnv mc cpu insn (m.feround h)
          let m := m.setFeround h env.round
          match rvFloatRounded mc cpu insn env f64 with
          | none => rvDoIillegal mc m h insn
          | some out => rvFloatFinish m h env out

/-- The fused operation of `rv_float_fmadd`; the result is not canonicalised. -/
def rvFloatFused (mc : EmuConfig δ) (cpu : RvCpu) (insn : U32) (env : FpEnv) (f64 : Bool) :
    RvCpu × FpFlags :=
  let subtract := (rvInsnOpMaj insn).getLsbD 0
  let negateMul := (rvInsnOpMaj insn).getLsbD 1
  let rs1 := rvFregReadAs cpu f64 (rvInsnRs1 insn)
  let rs2 := rvFregReadAs cpu f64 (rvInsnRs2 insn)
  let rs3 := rvFregReadAs cpu f64 (rvInsnRs3 insn)
  let invalid :=
    if f64 then
      (isinfF64 rs1 && iszeroF64 rs2) || (isinfF64 rs2 && iszeroF64 rs1)
    else
      (isinfF32 (lowF32 rs1) && iszeroF32 (lowF32 rs2)) ||
        (isinfF32 (lowF32 rs2) && iszeroF32 (lowF32 rs1))
  let signBit := if f64 then bit 63 else bit 31
  let rs1 := if negateMul then rs1 ^^^ signBit else rs1
  let rs3 := if subtract then rs3 ^^^ signBit else rs3
  let cpu := if invalid then rvAccrue cpu (bit rvFflagsNvBit) else cpu
  let write (res : U64) := rvFregWrite cpu (rvInsnRd insn) res
  match env.soft, f64 with
  | true, true =>
      let out := mc.softfloat.mulAdd64 env.softRound rs1 rs2 rs3
      (write out.1, .ofSoft out.2)
  | true, false =>
      let out := mc.softfloat.mulAdd32 env.softRound (lowF32 rs1) (lowF32 rs2) (lowF32 rs3)
      (write (boxF32 out.1), .ofSoft out.2)
  | false, true =>
      let out := mc.fpu.fma64 env.round rs1 rs2 rs3
      (write out.1, .ofHost out.2)
  | false, false =>
      let out := mc.fpu.fma32 env.round (lowF32 rs1) (lowF32 rs2) (lowF32 rs3)
      (write (boxF32 out.1), .ofHost out.2)

def rvFloatFmadd (mc : EmuConfig δ) (m : EmuMachine δ) (h : Nat) (insn : U32) : EmuMachine δ :=
  let cpu := m.cpus h
  if !rvCheckXs cpu.csr.mstatus rvStatusFsBaseBit then rvDoIillegal mc m h insn
  else
    match rvFloatFormat insn with
    | none => rvDoIillegal mc m h insn
    | some f64 =>
        let env := rvFloatEnv mc cpu insn (m.feround h)
        rvFloatFinish (m.setFeround h env.round) h env (rvFloatFused mc cpu insn env f64)

end Riscmulator
