import Riscmulator.Cpu

/-! Control and status registers: the register names, `rv_csr_read` and
`rv_csr_write`. -/

namespace Riscmulator

/-! ### Masks -/

def rvMisaMask (ext : Char) : U64 := bit (ext.toNat - 'A'.toNat)

def rvMisaValue : U64 :=
  bit 63 ||| rvMisaMask 'I' ||| rvMisaMask 'M' ||| rvMisaMask 'A' ||| rvMisaMask 'F' |||
    rvMisaMask 'D' ||| rvMisaMask 'C'

def rvMstatusHardwired : U64 :=
  2#64 <<< rvStatusUxlBaseBit ||| 2#64 <<< rvStatusSxlBaseBit

def rvSstatusHardwired : U64 := 2#64 <<< rvStatusUxlBaseBit

def rvMstatusMask : U64 :=
  bit rvStatusSieBit ||| bit rvStatusMieBit ||| bit rvStatusSpieBit |||
    bit rvStatusUbeBit ||| bit rvStatusMpieBit ||| bit rvStatusSppBit |||
    3#64 <<< rvStatusVsBaseBit ||| 3#64 <<< rvStatusMppBaseBit |||
    3#64 <<< rvStatusFsBaseBit ||| 3#64 <<< rvStatusXsBaseBit ||| bit rvStatusMprvBit |||
    bit rvStatusSumBit ||| bit rvStatusMxrBit ||| bit rvStatusTvmBit |||
    bit rvStatusTwBit ||| bit rvStatusTsrBit

def rvSstatusMask : U64 :=
  bit rvStatusSieBit ||| bit rvStatusSpieBit ||| bit rvStatusUbeBit |||
    bit rvStatusSppBit ||| 3#64 <<< rvStatusVsBaseBit ||| 3#64 <<< rvStatusFsBaseBit |||
    3#64 <<< rvStatusXsBaseBit ||| bit rvStatusSumBit ||| bit rvStatusMxrBit

/-- `RV_CHECK_XS`: the extension state field is not Off. -/
def rvCheckXs (bits : U64) (xsBaseBit : Nat) : Bool := ((bits >>> xsBaseBit) &&& 3) ≠ 0

def rvFcsrFrmBaseBit : Nat := 5
def rvFflagsMask : U64 := 0x1f
def rvFrmMask : U64 := 0x7
def rvFcsrMask : U64 := rvFrmMask <<< rvFcsrFrmBaseBit ||| rvFflagsMask

def rvMipSsipBit : Nat := 1
def rvMipMsipBit : Nat := 3
def rvMipStipBit : Nat := 5
def rvMipMtipBit : Nat := 7
def rvMipSeipBit : Nat := 9
def rvMipMeipBit : Nat := 11

def rvSipWmask : U64 := bit rvMipSsipBit ||| bit rvMipStipBit ||| bit rvMipSeipBit

def rvPmpcfgRBit : Nat := 0
def rvPmpcfgWBit : Nat := 1
def rvPmpcfgXBit : Nat := 2
def rvPmpcfgABaseBit : Nat := 3
def rvPmpcfgLBit : Nat := 7
def rvPmpAddrMatchNapot : U8 := 3
def rvPmpcfgByteMask : U8 := 0x9F
def rvPmpgrain : Nat := 12
def rvPmpgrainNapotMask : U64 := bit (rvPmpgrain - 1) - 1
def rvPmpgrainOffMask : U64 := bit rvPmpgrain - 1

def rvSatpModeBaseBit : Nat := 60
def rvSatpAsidBaseBit : Nat := 44
def rvSatpModeMask : U64 := 0xf000000000000000
def rvSatpAsidMask : U64 := 0x0ffff00000000000
def rvSatpPpnMask : U64 := 0x00000fffffffffff

/-! ### Register names -/

inductive RvCsr
  | misa | mhartid | marchid | mvendorid | mimpid
  | mstatus | mie | mip | mideleg | medeleg | mtvec
  | mcause | mtval | mepc | mtinst | mscratch
  | sstatus | sie | sip | stvec | scause | stval | sepc | sscratch | satp
  | fcsr | fflags | frm
  | pmpcfg (word : Fin 8)
  | pmpaddr (entry : Fin 64)
  deriving DecidableEq, Repr

/-- The scalar registers of `rv_defs/csr.h` that have a case of their own. -/
def rvCsrDefs : List (Nat × RvCsr) :=
  [(0x301, .misa), (0xF14, .mhartid), (0xF12, .marchid), (0xF11, .mvendorid), (0xF13, .mimpid),
   (0x300, .mstatus), (0x304, .mie), (0x344, .mip), (0x303, .mideleg), (0x302, .medeleg),
   (0x305, .mtvec), (0x342, .mcause), (0x343, .mtval), (0x341, .mepc), (0x34A, .mtinst),
   (0x340, .mscratch),
   (0x100, .sstatus), (0x104, .sie), (0x144, .sip), (0x105, .stvec), (0x142, .scause),
   (0x143, .stval), (0x141, .sepc), (0x140, .sscratch), (0x180, .satp),
   (0x003, .fcsr), (0x001, .fflags), (0x002, .frm)]

def rvCsrPmpcfg0 : Nat := 0x3A0
def rvCsrPmpaddr0 : Nat := 0x3B0

/-- Which register an index selects: the `switch` and, in its default case, the
two register arrays. Odd `pmpcfg` indices are illegal in RV64. -/
def rvCsrOfIndex (index : Nat) : Option RvCsr :=
  match rvCsrDefs.lookup index with
  | some csr => some csr
  | none =>
      if h : rvCsrPmpcfg0 ≤ index ∧ index ≤ 0x3AF then
        if index % 2 = 1 then none
        else some (.pmpcfg ⟨(index - rvCsrPmpcfg0) / 2, by simp only [rvCsrPmpcfg0] at *; omega⟩)
      else if h : rvCsrPmpaddr0 ≤ index ∧ index ≤ 0x3EF then
        some (.pmpaddr ⟨index - rvCsrPmpaddr0, by simp only [rvCsrPmpaddr0] at *; omega⟩)
      else none

/-- The lowest privilege an index may be accessed at. -/
def rvCsrPriv (index : Nat) : Nat := index / 2 ^ 8 % 4

def rvSatpTrapped (cpu : RvCpu) : Bool :=
  cpu.privilege = 1 && cpu.csr.mstatus.getLsbD rvStatusTvmBit

/-- `rv_flush_tlb`: clear every valid bit. -/
def rvFlushTlb (cpu : RvCpu) : RvCpu :=
  { cpu with tlb := { cpu.tlb with valid := fun row =>
      if row < rvTlbRows then 0 else cpu.tlb.valid row } }

/-! ### Reads -/

def rvCsrReadReg (cpu : RvCpu) : RvCsr → Option U64
  | .misa => some rvMisaValue
  | .mhartid => some cpu.csr.mhartid
  | .marchid => some cpu.csr.marchid
  | .mvendorid => some cpu.csr.mvendorid
  | .mimpid => some cpu.csr.mimpid
  | .mstatus => some (cpu.csr.mstatus ||| rvMstatusHardwired)
  | .mie => some cpu.csr.mie
  | .mip => some cpu.irqPending
  | .mideleg => some cpu.csr.mideleg
  | .medeleg => some cpu.csr.medeleg
  | .mtvec => some cpu.csr.mtvec
  | .mcause => some cpu.csr.mcause
  | .mtval => some cpu.csr.mtval
  | .mepc => some cpu.csr.mepc
  | .mtinst => some cpu.csr.mtinst
  | .mscratch => some cpu.csr.mscratch
  | .sstatus => some ((cpu.csr.mstatus &&& rvSstatusMask) ||| rvSstatusHardwired)
  | .sie => some cpu.csr.sie
  | .sip => some (cpu.irqPending &&& cpu.csr.mideleg)
  | .stvec => some cpu.csr.stvec
  | .scause => some cpu.csr.scause
  | .stval => some cpu.csr.stval
  | .sepc => some cpu.csr.sepc
  | .sscratch => some cpu.csr.sscratch
  | .satp => if rvSatpTrapped cpu then none else some cpu.csr.satp
  | .fcsr => if rvCheckXs cpu.csr.mstatus rvStatusFsBaseBit then some cpu.csr.fcsr else none
  | .fflags =>
      if rvCheckXs cpu.csr.mstatus rvStatusFsBaseBit then some (cpu.csr.fcsr &&& rvFflagsMask)
      else none
  | .frm =>
      if rvCheckXs cpu.csr.mstatus rvStatusFsBaseBit then
        some ((cpu.csr.fcsr >>> rvFcsrFrmBaseBit) &&& rvFrmMask)
      else none
  | .pmpcfg word => some (cpu.csr.pmpcfg word)
  | .pmpaddr entry =>
      let a := (cpu.csr.pmpcfgUnpacked entry >>> rvPmpcfgABaseBit) &&& 3
      if a = rvPmpAddrMatchNapot then some (cpu.csr.pmpaddr entry ||| rvPmpgrainNapotMask)
      else some (cpu.csr.pmpaddr entry &&& ~~~rvPmpgrainOffMask)

/-- `rv_csr_read`: the value read, or `none` without permission or register. -/
def rvCsrRead (cpu : RvCpu) (index : Nat) : Option U64 :=
  if rvCsrPriv index > cpu.privilege.toNat then none
  else (rvCsrOfIndex index).bind (rvCsrReadReg cpu)

/-! ### Writes -/

/-- One byte of a `pmpcfg` write: TOR becomes OFF, NA4 becomes NAPOT, and a
locked byte keeps its old value. -/
def rvPmpcfgWriteByte (oldByte written : U8) : U8 :=
  let newByte := written &&& rvPmpcfgByteMask
  let a := (newByte >>> rvPmpcfgABaseBit) &&& 3
  let newByte := (newByte &&& ~~~(3#8 <<< rvPmpcfgABaseBit)) |||
    ((if a.getLsbD 1 then 3#8 else 0#8) <<< rvPmpcfgABaseBit)
  if oldByte.getLsbD rvPmpcfgLBit then oldByte else newByte

def rvPmpcfgWriteWord (old wdata : U64) : U64 :=
  (List.range 8).foldl (fun result b =>
    result ||| ((rvPmpcfgWriteByte ((old >>> (b * 8)).setWidth 8)
      ((wdata >>> (b * 8)).setWidth 8)).setWidth 64 <<< (b * 8))) 0

/-- The value a `mstatus` write stores. The bit position 11 itself, not the
MPP mask it stands for, is what the shifted value is masked with. -/
def rvMstatusWdata (wdata : U64) : U64 :=
  (wdata ||| ((wdata >>> 1) &&& BitVec.ofNat 64 rvStatusMppBaseBit)) &&& rvMstatusMask

def rvSatpMode (satp : U64) : U64 := (satp &&& rvSatpModeMask) >>> rvSatpModeBaseBit

def RvCpu.withCsr (cpu : RvCpu) (csr : RvCsrState) : RvCpu := { cpu with csr := csr }

def rvCsrWriteReg (cpu : RvCpu) (reg : RvCsr) (wdata : U64) : Option RvCpu :=
  match reg with
  | .misa | .mhartid | .marchid | .mimpid | .mvendorid => some cpu
  | .mstatus =>
      some (rvSyncMemPrivilege (cpu.withCsr { cpu.csr with mstatus := rvMstatusWdata wdata }))
  | .mie => some (cpu.withCsr { cpu.csr with mie := wdata })
  | .mip =>
      some { cpu with irqPending := (cpu.irqPending &&& ~~~rvSipWmask) ||| (wdata &&& rvSipWmask) }
  | .mideleg => some (cpu.withCsr { cpu.csr with mideleg := wdata })
  | .medeleg => some (cpu.withCsr { cpu.csr with medeleg := wdata })
  | .mtvec => some (cpu.withCsr { cpu.csr with mtvec := wdata })
  | .mcause => some (cpu.withCsr { cpu.csr with mcause := wdata })
  | .mtval => some (cpu.withCsr { cpu.csr with mtval := wdata })
  | .mepc => some (cpu.withCsr { cpu.csr with mepc := wdata })
  | .mtinst => some (cpu.withCsr { cpu.csr with mtinst := wdata })
  | .mscratch => some (cpu.withCsr { cpu.csr with mscratch := wdata })
  | .sstatus =>
      some (cpu.withCsr { cpu.csr with
        mstatus := (cpu.csr.mstatus &&& ~~~rvSstatusMask) ||| (wdata &&& rvSstatusMask) })
  | .sie => some (cpu.withCsr { cpu.csr with sie := wdata })
  | .sip =>
      let mask := cpu.csr.mideleg &&& rvSipWmask
      some { cpu with irqPending := (cpu.irqPending &&& ~~~mask) ||| (wdata &&& mask) }
  | .stvec => some (cpu.withCsr { cpu.csr with stvec := wdata })
  | .scause => some (cpu.withCsr { cpu.csr with scause := wdata })
  | .stval => some (cpu.withCsr { cpu.csr with stval := wdata })
  | .sepc => some (cpu.withCsr { cpu.csr with sepc := wdata })
  | .sscratch => some (cpu.withCsr { cpu.csr with sscratch := wdata })
  | .satp =>
      if rvSatpTrapped cpu then none
      -- An unsupported mode is not written.
      else if rvSatpMode wdata ≠ 8 ∧ rvSatpMode wdata ≠ 0 then some cpu
      else
        let cpu := if rvSatpMode wdata ≠ 8 then rvFlushTlb cpu else cpu
        some (cpu.withCsr { cpu.csr with satp := wdata })
  | .fcsr =>
      if rvCheckXs cpu.csr.mstatus rvStatusFsBaseBit then
        some (cpu.withCsr { cpu.csr with fcsr := wdata &&& rvFcsrMask })
      else none
  | .fflags =>
      if rvCheckXs cpu.csr.mstatus rvStatusFsBaseBit then
        some (cpu.withCsr { cpu.csr with
          fcsr := (cpu.csr.fcsr &&& ~~~rvFflagsMask) ||| (wdata &&& rvFflagsMask) })
      else none
  | .frm =>
      if rvCheckXs cpu.csr.mstatus rvStatusFsBaseBit then
        some (cpu.withCsr { cpu.csr with
          fcsr := (cpu.csr.fcsr &&& ~~~(rvFrmMask <<< rvFcsrFrmBaseBit)) |||
            ((wdata &&& rvFrmMask) <<< rvFcsrFrmBaseBit) })
      else none
  | .pmpcfg word =>
      some (cpu.withCsr { cpu.csr with
        pmpcfg := Function.update cpu.csr.pmpcfg word
          (rvPmpcfgWriteWord (cpu.csr.pmpcfg word) wdata) })
  | .pmpaddr entry =>
      -- A locked entry silently ignores the write.
      if (cpu.csr.pmpcfgUnpacked entry).getLsbD rvPmpcfgLBit then some cpu
      else some (cpu.withCsr { cpu.csr with
        pmpaddr := Function.update cpu.csr.pmpaddr entry wdata })

/-- `rv_csr_write`: the core after the write, or `none` when it fails. -/
def rvCsrWrite (cpu : RvCpu) (index : Nat) (wdata : U64) : Option RvCpu :=
  if rvCsrPriv index > cpu.privilege.toNat then none
  else (rvCsrOfIndex index).bind fun reg => rvCsrWriteReg cpu reg wdata

end Riscmulator
