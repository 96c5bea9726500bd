import Mathlib.Data.BitVec
import Mathlib.Logic.Function.Basic

/-! One RISC-V core as `struct rv_cpu` holds it: registers, control and status
registers, the translation lookaside buffer and the interrupt lines.

Arrays are functions of their index. Fields that no modelled function reads
(vector registers and vector state, the host's `halted` flag) are left out. -/

namespace Riscmulator

abbrev U8 := BitVec 8
abbrev U16 := BitVec 16
abbrev U32 := BitVec 32
abbrev U64 := BitVec 64

/-- `UINT64_C(1) << n`. -/
def bit (n : Nat) : U64 := 1#64 <<< n

def rvCpuPageSizeExp : Nat := 12
def rvCpuPageSize : U64 := 4096

def rvTlbColumns : Nat := 16
def rvTlbRows : Nat := 16

/-! ### Bit positions in `mstatus` -/

def rvStatusSieBit : Nat := 1
def rvStatusMieBit : Nat := 3
def rvStatusSpieBit : Nat := 5
def rvStatusUbeBit : Nat := 6
def rvStatusMpieBit : Nat := 7
def rvStatusSppBit : Nat := 8
def rvStatusVsBaseBit : Nat := 9
def rvStatusMppBaseBit : Nat := 11
def rvStatusFsBaseBit : Nat := 13
def rvStatusXsBaseBit : Nat := 15
def rvStatusMprvBit : Nat := 17
def rvStatusSumBit : Nat := 18
def rvStatusMxrBit : Nat := 19
def rvStatusTvmBit : Nat := 20
def rvStatusTwBit : Nat := 21
def rvStatusTsrBit : Nat := 22
def rvStatusUxlBaseBit : Nat := 32
def rvStatusSxlBaseBit : Nat := 34

/-- One TLB entry: virtual address, ASID and PMP permission bits in `vma`. -/
structure RvTlbEntry where
  vma : U64
  pte : U64
  deriving DecidableEq, Repr, Inhabited

/-- Translation lookaside buffer. `entries` is the flat array of
`RV_TLB_COLUMNS * RV_TLB_ROWS` slots, `valid` one 16-bit word per row. The C
array ends at the last slot; `entries` has room for a mark of each store past
it, and what such a store overwrites is `RvCpu.putWord`. -/
structure RvTlb where
  entries : Nat → RvTlbEntry
  valid : Nat → U16
  nextColumn : U8

structure RvCsrState where
  mhartid : U64
  marchid : U64
  mimpid : U64
  mvendorid : U64
  mstatus : U64
  mie : U64
  mideleg : U64
  medeleg : U64
  mtvec : U64
  mcause : U64
  mtval : U64
  mepc : U64
  mtinst : U64
  /-- The eight packed words of `union rv_pmpcfg`. -/
  pmpcfg : Fin 8 → U64
  pmpaddr : Fin 64 → U64
  sie : U64
  stvec : U64
  scause : U64
  stval : U64
  sepc : U64
  sscratch : U64
  mscratch : U64
  satp : U64
  fcsr : U64

structure RvCpu where
  tlb : RvTlb
  xregs : BitVec 5 → U64
  fregs : BitVec 5 → U64
  csr : RvCsrState
  pc : U64
  epc : U64
  privilege : U8
  /-- MPRV-adjusted privilege of data accesses. -/
  memPrivilege : U8
  clintTimerArmed : Bool
  irqPending : U64

/-! ### The core in the host's memory

The words of 64 bits behind the TLB entries of `struct rv_cpu`, on a 64-bit
little-endian host: 0 to 4 the rest of the TLB, 5 to 36 the integer registers, 37
to 68 the floating-point registers, 69 to 166 the control and status registers,
then `pc`, `epc`, the four bytes from `privilege` on and `irq_pending`. -/

/-- Words 163 to 166 hold the vector state. -/
def RvCsrState.putWord (csr : RvCsrState) (word : Nat) (value : U64) : RvCsrState :=
  let put (place : Nat) (old : U64) : U64 := if word = place then value else old
  { mhartid := put 69 csr.mhartid
    marchid := put 70 csr.marchid
    mimpid := put 71 csr.mimpid
    mvendorid := put 72 csr.mvendorid
    mstatus := put 73 csr.mstatus
    mie := put 74 csr.mie
    mideleg := put 75 csr.mideleg
    medeleg := put 76 csr.medeleg
    mtvec := put 77 csr.mtvec
    mcause := put 78 csr.mcause
    mtval := put 79 csr.mtval
    mepc := put 80 csr.mepc
    mtinst := put 81 csr.mtinst
    pmpcfg := fun i => put (82 + i.val) (csr.pmpcfg i)
    pmpaddr := fun i => put (90 + i.val) (csr.pmpaddr i)
    sie := put 154 csr.sie
    stvec := put 155 csr.stvec
    scause := put 156 csr.scause
    stval := put 157 csr.stval
    sepc := put 158 csr.sepc
    sscratch := put 159 csr.sscratch
    mscratch := put 160 csr.mscratch
    satp := put 161 csr.satp
    fcsr := put 162 csr.fcsr }

/-- The core after a store to the word `word` behind its TLB entries. Only the
eviction of an entry makes one, and it increments `next_column` afterwards. -/
def RvCpu.putWord (cpu : RvCpu) (word : Nat) (value : U64) : RvCpu :=
  let put (place : Nat) (old : U64) : U64 := if word = place then value else old
  { tlb := { cpu.tlb with
      valid := fun row =>
        if row / 4 = word then (value >>> (16 * (row % 4))).setWidth 16 else cpu.tlb.valid row
      nextColumn := if word = 4 then value.setWidth 8 + 1 else cpu.tlb.nextColumn }
    xregs := fun i => put (5 + i.toNat) (cpu.xregs i)
    fregs := fun i => put (37 + i.toNat) (cpu.fregs i)
    csr := cpu.csr.putWord word value
    pc := put 167 cpu.pc
    epc := put 168 cpu.epc
    privilege := if word = 169 then value.setWidth 8 else cpu.privilege
    memPrivilege := if word = 169 then (value >>> 8).setWidth 8 else cpu.memPrivilege
    clintTimerArmed :=
      if word = 169 then (value >>> 24).setWidth 8 ≠ 0#8 else cpu.clintTimerArmed
    irqPending := put 170 cpu.irqPending }

/-- The byte `unpacked[i]` of `union rv_pmpcfg` on a little-endian host. -/
def RvCsrState.pmpcfgUnpacked (csr : RvCsrState) (i : Fin 64) : U8 :=
  (csr.pmpcfg ⟨i / 8, by omega⟩ >>> (8 * (i.val % 8))).setWidth 8

/-- The word of `union rv_pmpcfg` that holds the byte `unpacked[i]`. -/
def pmpWord (i : Fin 64) : Fin 8 := ⟨i / 8, by omega⟩

/-- `rv_sync_mem_privilege`: recompute the data privilege from MPRV and MPP. -/
def rvSyncMemPrivilege (cpu : RvCpu) : RvCpu :=
  let mprv := cpu.csr.mstatus.getLsbD rvStatusMprvBit
  { cpu with
    memPrivilege :=
      if mprv then ((cpu.csr.mstatus >>> rvStatusMppBaseBit) &&& 3).setWidth 8
      else cpu.privilege }

def rvXregRead (cpu : RvCpu) (index : BitVec 5) : U64 := cpu.xregs index

def rvXregWrite (cpu : RvCpu) (index : BitVec 5) (value : U64) : RvCpu :=
  if index ≠ 0 then { cpu with xregs := Function.update cpu.xregs index value } else cpu

def rvFregRead (cpu : RvCpu) (index : BitVec 5) : U64 := cpu.fregs index

def rvFregWrite (cpu : RvCpu) (index : BitVec 5) (value : U64) : RvCpu :=
  { cpu with fregs := Function.update cpu.fregs index value }

/-! ### What the register accessors leave alone -/

@[simp] theorem rvXregWrite_csr (cpu : RvCpu) (index : BitVec 5) (value : U64) :
    (rvXregWrite cpu index value).csr = cpu.csr := by
  unfold rvXregWrite
  split <;> rfl

theorem rvXregWrite_tlb (cpu : RvCpu) (index : BitVec 5) (value : U64) :
    (rvXregWrite cpu index value).tlb = cpu.tlb := by
  unfold rvXregWrite
  split <;> rfl

@[simp] theorem rvSyncMemPrivilege_csr (cpu : RvCpu) :
    (rvSyncMemPrivilege cpu).csr = cpu.csr := rfl

@[simp] theorem rvSyncMemPrivilege_privilege (cpu : RvCpu) :
    (rvSyncMemPrivilege cpu).privilege = cpu.privilege := rfl

def RvCpu.zero : RvCpu where
  tlb := { entries := fun _ => ⟨0, 0⟩, valid := fun _ => 0, nextColumn := 0 }
  xregs := fun _ => 0
  fregs := fun _ => 0
  csr :=
    { mhartid := 0, marchid := 0, mimpid := 0, mvendorid := 0, mstatus := 0, mie := 0,
      mideleg := 0, medeleg := 0, mtvec := 0, mcause := 0, mtval := 0, mepc := 0, mtinst := 0,
      pmpcfg := fun _ => 0, pmpaddr := fun _ => 0, sie := 0, stvec := 0, scause := 0, stval := 0,
      sepc := 0, sscratch := 0, mscratch := 0, satp := 0, fcsr := 0 }
  pc := 0
  epc := 0
  privilege := 0
  memPrivilege := 0
  clintTimerArmed := false
  irqPending := 0

end Riscmulator
