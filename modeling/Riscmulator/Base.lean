import Riscmulator.Insn

/-! The base integer instructions and the M extension, from `rv_impl/base.c`
and `rv_impl/muldiv.c`. -/

namespace Riscmulator

variable {δ : Type}

/-! ### Multiply and divide -/

/-- The value `rv_muldiv_op` writes; `none` for the missing `MULH*W`. -/
def rvMuldivResult (insn : U32) (rs1 rs2 : U64) : Option U64 :=
  let is32 := (rvInsnOpMaj insn).getLsbD 1
  let funct3 := rvInsnFunct3 insn
  if is32 ∧ 1 ≤ funct3 ∧ funct3 ≤ 3 then none
  else
    let rs1S := if is32 then sext32 rs1 else rs1
    let rs2S := if is32 then sext32 rs2 else rs2
    let rs1 := if is32 then zext32 rs1 else rs1
    let rs2 := if is32 then zext32 rs2 else rs2
    let signedOverflow :=
      rs2S = BitVec.allOnes 64 ∧
        rs1S = if is32 then sext32 0x80000000 else 0x8000000000000000
    let res : U64 :=
      match funct3 with
      | 0 => rs1S * rs2S
      | 1 => ((rs1S.signExtend 128 * rs2S.signExtend 128) >>> 64).setWidth 64
      | 2 => ((rs1S.signExtend 128 * rs2.setWidth 128) >>> 64).setWidth 64
      | 3 => ((rs1.setWidth 128 * rs2.setWidth 128) >>> 64).setWidth 64
      | 4 =>
          if rs2S = 0 then BitVec.allOnes 64
          else if signedOverflow then rs1S
          else rs1S.sdiv rs2S
      | 5 => if rs2 = 0 then (if is32 then 0xFFFFFFFF else BitVec.allOnes 64) else rs1 / rs2
      | 6 =>
          if rs2S = 0 then rs1S
          else if signedOverflow then 0
          else rs1S.srem rs2S
      | _ => if rs2 = 0 then rs1 else rs1 % rs2
    some (if is32 then sext32 res else res)

def rvMuldivOp (mc : EmuConfig δ) (m : EmuMachine δ) (h : Nat) (insn : U32) : EmuMachine δ :=
  match rvMuldivResult insn (m.xreg h (rvInsnRs1 insn)) (m.xreg h (rvInsnRs2 insn)) with
  | none => rvDoIillegal mc m h insn
  | some res => m.writeXreg h (rvInsnRd insn) res

/-! ### OP, OP-IMM, OP-32 and OP-IMM-32 -/

/-- The value `rv_base_op` writes for register operands `rs1` and `rs2`. -/
def rvBaseOpResult (insn : U32) (rs1 rs2 : U64) : U64 :=
  let isReg := (rvInsnOpMaj insn).getLsbD 3
  let is32 := (rvInsnOpMaj insn).getLsbD 1
  let rhs := if isReg then rs2 else rvInsnImm12 insn
  let lhsS := if is32 then sext32 rs1 else rs1
  let rhsS := if is32 then sext32 rhs else rhs
  let lhs := if is32 then zext32 rs1 else rs1
  let rhs := if is32 then zext32 rhs else rhs
  -- W-type shifts use five bits of the operand, 64-bit shifts six.
  let shamt := (rhs &&& (if is32 then 0x1f else 0x3f)).toNat
  let res : U64 :=
    match rvInsnFunct3 insn with
    | 0 => if insn.getLsbD 30 && isReg then lhs - rhs else lhs + rhs
    | 1 => lhs <<< shamt
    | 2 => if lhsS.slt rhsS then 1 else 0
    | 3 => if lhs < rhs then 1 else 0
    | 4 => lhs ^^^ rhs
    | 5 => if insn.getLsbD 30 then lhsS.sshiftRight shamt else lhs >>> shamt
    | 6 => lhs ||| rhs
    | _ => lhs &&& rhs
  if is32 then sext32 res else res

def rvBaseOp (mc : EmuConfig δ) (m : EmuMachine δ) (h : Nat) (insn : U32) : EmuMachine δ :=
  if (rvInsnOpMaj insn).getLsbD 3 ∧ rvInsnFunct7 insn = 1 then rvMuldivOp mc m h insn
  else m.writeXreg h (rvInsnRd insn)
    (rvBaseOpResult insn (m.xreg h (rvInsnRs1 insn)) (m.xreg h (rvInsnRs2 insn)))

/-! ### Loads and stores -/

/-- Log-base 2 of the size of a load; `none` for the reserved `funct3`. -/
def rvLoadSizeExp (funct3 : BitVec 3) : Option (Fin 4) :=
  match funct3 with
  | 0 | 4 => some 0
  | 1 | 5 => some 1
  | 2 | 6 => some 2
  | 3 => some 3
  | _ => none

def rvLoadExtend (funct3 : BitVec 3) (rdata : U64) : U64 :=
  match funct3 with
  | 0 => (rdata.setWidth 8).signExtend 64
  | 1 => (rdata.setWidth 16).signExtend 64
  | 2 => (rdata.setWidth 32).signExtend 64
  | _ => rdata

/-- An FP load or store is illegal with FS off or a size other than 4 and 8. -/
def rvFpAccessIllegal (cpu : RvCpu) (insn : U32) : Bool :=
  (rvInsnOpMaj insn).getLsbD 0 &&
    (!rvCheckXs cpu.csr.mstatus rvStatusFsBaseBit || (rvInsnFunct3 insn &&& 6) ≠ 2)

def rvBaseLoad (mc : EmuConfig δ) (m : EmuMachine δ) (h : Nat) (insn : U32)
    (access : VirtAccess δ := rvAccessVirt mc) : EmuMachine δ :=
  let isLoadFp := (rvInsnOpMaj insn).getLsbD 0
  let funct3 := rvInsnFunct3 insn
  let addr := m.xreg h (rvInsnRs1 insn) + rvInsnImm12 insn
  if rvFpAccessIllegal (m.cpus h) insn then rvDoIillegal mc m h insn
  else
    match rvLoadSizeExp funct3 with
    | none => rvDoIillegal mc m h insn
    | some sizeExp =>
        let out := access m h addr 0 sizeExp .load
        if out.res ≠ .ok then rvMemTrap mc out.machine h out.res .load addr
        else
          let rdata := rvLoadExtend funct3 (out.data.getD 0)
          if isLoadFp then
            -- flw is NaN-boxed into the upper 32 bits.
            let rdata := if funct3 = 2 then rdata ||| 0xffffffff00000000 else rdata
            out.machine.setCpu h (rvFregWrite (out.machine.cpus h) (rvInsnRd insn) rdata)
          else out.machine.writeXreg h (rvInsnRd insn) rdata

/-- `funct3 & 3`, the size of a store. -/
def rvStoreSizeExp (funct3 : BitVec 3) : Fin 4 := ⟨(funct3 &&& 3).toNat, by
  have := (funct3 &&& 3).isLt
  have hle : (funct3 &&& 3).toNat ≤ 3 := by
    rw [BitVec.toNat_and]
    exact Nat.and_le_right
  omega⟩

def rvBaseStore (mc : EmuConfig δ) (m : EmuMachine δ) (h : Nat) (insn : U32)
    (access : VirtAccess δ := rvAccessVirt mc) : EmuMachine δ :=
  let isStoreFp := (rvInsnOpMaj insn).getLsbD 0
  let addr := m.xreg h (rvInsnRs1 insn) + rvInsnSImm12 insn
  let wdata :=
    if isStoreFp then rvFregRead (m.cpus h) (rvInsnRs2 insn) else m.xreg h (rvInsnRs2 insn)
  if rvFpAccessIllegal (m.cpus h) insn then rvDoIillegal mc m h insn
  else
    let out := access m h addr wdata (rvStoreSizeExp (rvInsnFunct3 insn)) .store
    if out.res ≠ .ok then rvMemTrap mc out.machine h out.res .store addr else out.machine

/-! ### Jumps, branches and upper immediates -/

def rvJalImm (insn : U32) : U32 :=
  let imm1912 := ((insn >>> 12) &&& 0xff) <<< 12
  let imm11 := ((insn >>> 20) &&& 1) <<< 11
  let imm101 := ((insn >>> 21) &&& 0x3ff) <<< 1
  let imm20 := insn.sshiftRight 31 <<< 20
  imm1912 ||| imm11 ||| imm101 ||| imm20

def rvBaseJal (m : EmuMachine δ) (h : Nat) (insn : U32) : EmuMachine δ :=
  let linked := m.writeXreg h (rvInsnRd insn) (m.cpus h).pc
  linked.setPc h ((m.cpus h).epc + (rvJalImm insn).signExtend 64)

/-- `rv_base_jalr`. The target is read before `rd` is written. -/
def rvBaseJalr (m : EmuMachine δ) (h : Nat) (insn : U32) : EmuMachine δ :=
  let target := (m.xreg h (rvInsnRs1 insn) + rvInsnImm12 insn) &&& ~~~1
  (m.writeXreg h (rvInsnRd insn) (m.cpus h).pc).setPc h target

/-- `rv_base_lui`, for LUI and AUIPC. -/
def rvBaseLui (m : EmuMachine δ) (h : Nat) (insn : U32) : EmuMachine δ :=
  let res := (insn &&& 0xfffff000).signExtend 64
  let res := if (rvInsnOpMaj insn).getLsbD 3 then res else res + (m.cpus h).epc
  m.writeXreg h (rvInsnRd insn) res

def rvBranchImm (insn : U32) : U32 :=
  let imm41 := (insn &&& 0x00000f00).sshiftRight 8 <<< 1
  let imm105 := (insn &&& 0x7e000000).sshiftRight 25 <<< 5
  let imm11 := (insn &&& 0x00000080).sshiftRight 7 <<< 11
  let imm12 := insn.sshiftRight 31 <<< 12
  imm41 ||| imm105 ||| imm11 ||| imm12

/-- The condition of a branch; `none` for the reserved `funct3`. -/
def rvBranchCond (funct3 : BitVec 3) (lhs rhs : U64) : Option Bool :=
  match funct3 with
  | 0 => some (lhs == rhs)
  | 1 => some (lhs != rhs)
  | 4 => some (lhs.slt rhs)
  | 5 => some (!lhs.slt rhs)
  | 6 => some (decide (lhs < rhs))
  | 7 => some (decide (lhs ≥ rhs))
  | _ => none

def rvBaseBranch (mc : EmuConfig δ) (m : EmuMachine δ) (h : Nat) (insn : U32) : EmuMachine δ :=
  match rvBranchCond (rvInsnFunct3 insn) (m.xreg h (rvInsnRs1 insn))
      (m.xreg h (rvInsnRs2 insn)) with
  | none => rvDoIillegal mc m h insn
  | some true => m.setPc h ((rvBranchImm insn).signExtend 64 + (m.cpus h).epc)
  | some false => m

/-- `rv_base_miscmem`: fences and yields change nothing the guest can see. -/
def rvBaseMiscmem (m : EmuMachine δ) (_h : Nat) (_insn : U32) : EmuMachine δ := m

/-! ### SYSTEM -/

/-- The source operand of a CSR instruction and whether it writes. -/
def doCsrSource (cpu : RvCpu) (insn : U32) : U64 × Bool :=
  let funct3 := rvInsnFunct3 insn
  if funct3.getLsbD 2 then ((rvInsnRs1 insn).setWidth 64, true)
  else
    (rvXregRead cpu (rvInsnRs1 insn), (funct3 &&& 3) = 1 || rvInsnRs1 insn ≠ 0)

/-- The value a CSR instruction writes, from the value read. -/
def doCsrWdata (insn : U32) (rdata source : U64) : U64 :=
  match rvInsnFunct3 insn &&& 3 with
  | 2 => rdata ||| source
  | 3 => rdata &&& ~~~source
  | _ => source

/-- The register read of a CSR instruction, skipped by CSRRW with `rd = x0`. -/
def doCsrRead (cpu : RvCpu) (insn : U32) : Option U64 :=
  if rvInsnRd insn ≠ 0 ∨ (rvInsnFunct3 insn &&& 3) ≠ 1 then
    rvCsrRead cpu (rvInsnUimm12 insn).toNat
  else some 0

def doCsrWrite (cpu : RvCpu) (insn : U32) (rdata : U64) : Option RvCpu :=
  let source := doCsrSource cpu insn
  if source.2 then
    rvCsrWrite cpu (rvInsnUimm12 insn).toNat (doCsrWdata insn rdata source.1)
  else some cpu

def doCsr (mc : EmuConfig δ) (m : EmuMachine δ) (h : Nat) (insn : U32) : EmuMachine δ :=
  match doCsrRead (m.cpus h) insn with
  | none => rvDoIillegal mc m h insn
  | some rdata =>
      if (rvInsnFunct3 insn &&& 3) = 0 then rvDoIillegal mc m h insn
      else
        match doCsrWrite (m.cpus h) insn rdata with
        | none => rvDoIillegal mc m h insn
        | some cpu => m.setCpu h (rvXregWrite cpu (rvInsnRd insn) rdata)

def rvMret (cpu : RvCpu) : RvCpu :=
  let mpie := cpu.csr.mstatus.getLsbD rvStatusMpieBit
  let mstatus := cpu.csr.mstatus &&& ~~~bit rvStatusMieBit
  let mstatus := mstatus |||
    ((BitVec.ofBool mpie).setWidth 64 <<< rvStatusMieBit ||| bit rvStatusMpieBit)
  let privilege := ((mstatus >>> rvStatusMppBaseBit) &&& 3).setWidth 8
  let mstatus := mstatus &&& ~~~(3#64 <<< rvStatusMppBaseBit)
  let mstatus := if privilege ≠ 3#8 then mstatus &&& ~~~bit rvStatusMprvBit else mstatus
  { rvSyncMemPrivilege { cpu with csr := { cpu.csr with mstatus := mstatus }, privilege := privilege }
    with pc := cpu.csr.mepc }

def rvSret (cpu : RvCpu) : RvCpu :=
  let spp := cpu.csr.mstatus.getLsbD rvStatusSppBit
  let spie := cpu.csr.mstatus.getLsbD rvStatusSpieBit
  let mstatus := cpu.csr.mstatus &&& ~~~bit rvStatusSieBit
  let mstatus := mstatus ||| ((BitVec.ofBool spie).setWidth 64 <<< rvStatusSieBit)
  let mstatus := mstatus &&& ~~~bit rvStatusSppBit
  let mstatus := mstatus ||| bit rvStatusSpieBit
  let mstatus := mstatus &&& ~~~bit rvStatusMprvBit
  { rvSyncMemPrivilege { cpu with
      csr := { cpu.csr with mstatus := mstatus }
      privilege := (BitVec.ofBool spp).setWidth 8 }
    with pc := cpu.csr.sepc }

/-- A supervisor instruction is illegal in U-mode, and in S-mode when its
`mstatus` trap bit is set. -/
def rvSupervisorIllegal (cpu : RvCpu) (trapBit : Nat) : Bool :=
  cpu.privilege < 1 || (cpu.privilege == 1 && cpu.csr.mstatus.getLsbD trapBit)

/-- The cause of an environment call; `none` where the code calls `abort`. -/
def rvEcallCause (privilege : U8) : Option RvCause :=
  match privilege with
  | 0 => some .ecallU
  | 1 => some .ecallS
  | 3 => some .ecallM
  | _ => none

def rvSfenceVma (cpu : RvCpu) (insn : U32) : RvCpu :=
  rvInvalTlb cpu (rvXregRead cpu (rvInsnRs1 insn)) ((rvXregRead cpu (rvInsnRs2 insn)).setWidth 16)
    (rvInsnRs1 insn ≠ 0) (rvInsnRs2 insn ≠ 0)

def rvBaseSystem (mc : EmuConfig δ) (m : EmuMachine δ) (h : Nat) (insn : U32) : EmuMachine δ :=
  let cpu := m.cpus h
  if rvInsnFunct3 insn ≠ 0 then doCsr mc m h insn
  else if insn = 0x30200073 ∧ cpu.privilege = 3 then m.setCpu h (rvMret cpu)
  else if insn = 0x10200073 then
    if rvSupervisorIllegal cpu rvStatusTsrBit then rvDoIillegal mc m h insn
    else m.setCpu h (rvSret cpu)
  else if insn = 0x10500073 then
    -- wfi yields to the host.
    if cpu.privilege < 3 && cpu.csr.mstatus.getLsbD rvStatusTwBit then rvDoIillegal mc m h insn
    else m
  else if (insn >>> 25) = 0x09 then
    if rvSupervisorIllegal cpu rvStatusTvmBit then rvDoIillegal mc m h insn
    else m.setCpu h (rvSfenceVma cpu insn)
  else if insn = 0x00000073 then
    match rvEcallCause cpu.privilege with
    | none => { m with aborted := true }
    | some cause => rvDoTrap mc m h { epc := cpu.epc, cause := cause.code, tval := 0 }
  else if insn = 0x00100073 then
    rvDoTrap mc m h { epc := cpu.epc, cause := RvCause.ebreak.code, tval := 0 }
  else rvDoIillegal mc m h insn

end Riscmulator
