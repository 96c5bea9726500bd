import Riscmulator.Machine

/-! Trap entry and interrupt dispatch, from `rv_privileged.c`. -/

namespace Riscmulator

variable {δ : Type}

inductive RvCause
  | ialign | iaccess | iillegal | ebreak | lalign | laccess | salign | saccess
  | ecallU | ecallS | ecallM | ipage | lpage | spage | swchk | hwerr
  deriving DecidableEq, Repr

def RvCause.code : RvCause → U64
  | .ialign => 0
  | .iaccess => 1
  | .iillegal => 2
  | .ebreak => 3
  | .lalign => 4
  | .laccess => 5
  | .salign => 6
  | .saccess => 7
  | .ecallU => 8
  | .ecallS => 9
  | .ecallM => 11
  | .ipage => 12
  | .lpage => 13
  | .spage => 15
  | .swchk => 18
  | .hwerr => 19

/-- `rv_mem_cause`: the trap cause of a failed access. -/
def rvMemCause (r : RvMemResult) (mode : RvAccess) : RvCause :=
  if r = .pageFault then
    match mode with
    | .insn => .ipage
    | .load => .lpage
    | .amo | .store => .spage
  else
    match mode with
    | .insn => .iaccess
    | .load => .laccess
    | .amo | .store => .saccess

def rvCauseIntrFlag : U64 := 0x8000000000000000

def RvTrap.isInterrupt (trap : RvTrap) : Bool := (trap.cause >>> 63) ≠ 0

def RvTrap.causeLow (trap : RvTrap) : Nat := (trap.cause &&& 0x3f).toNat

/-- Whether a trap is handled in S-mode: the core is below M-mode and the
delegation bit of the cause is set. -/
def rvTrapDelegated (cpu : RvCpu) (trap : RvTrap) : Bool :=
  let delegMask := if trap.isInterrupt then cpu.csr.mideleg else cpu.csr.medeleg
  cpu.privilege ≤ 1 && delegMask.getLsbD trap.causeLow

/-- Where a handler starts: vectored mode sends interrupts to `BASE + 4 * cause`. -/
def rvTrapPc (tvec : U64) (trap : RvTrap) : U64 :=
  let base := tvec &&& ~~~3
  if trap.isInterrupt && tvec.getLsbD 0 then base + BitVec.ofNat 64 (4 * trap.causeLow) else base

/-- `mstatus` on entry to S-mode: SIE moves to SPIE, the privilege to SPP. -/
def rvTrapMstatusS (mstatus : U64) (privilege : U8) : U64 :=
  let spie := mstatus.getLsbD rvStatusSieBit
  let mstatus := mstatus &&& ~~~bit rvStatusSpieBit
  let mstatus := mstatus &&& ~~~bit rvStatusSieBit
  let mstatus := mstatus &&& ~~~bit rvStatusSppBit
  let mstatus := mstatus ||| ((BitVec.ofBool spie).setWidth 64 <<< rvStatusSpieBit)
  mstatus ||| (privilege.setWidth 64 <<< rvStatusSppBit)

/-- `mstatus` on entry to M-mode: MIE moves to MPIE, the privilege to MPP. -/
def rvTrapMstatusM (mstatus : U64) (privilege : U8) : U64 :=
  let mpie := mstatus.getLsbD rvStatusMieBit
  let mstatus := mstatus &&& ~~~bit rvStatusMpieBit
  let mstatus := mstatus &&& ~~~bit rvStatusMieBit
  let mstatus := mstatus &&& ~~~(3#64 <<< rvStatusMppBaseBit)
  let mstatus := mstatus ||| ((BitVec.ofBool mpie).setWidth 64 <<< rvStatusMpieBit)
  mstatus ||| (privilege.setWidth 64 <<< rvStatusMppBaseBit)

def rvTrapEnterS (cpu : RvCpu) (trap : RvTrap) : RvCpu :=
  let cpu := { cpu with
    csr := { cpu.csr with
      sepc := trap.epc
      scause := trap.cause
      stval := trap.tval
      mstatus := rvTrapMstatusS cpu.csr.mstatus cpu.privilege }
    privilege := 1 }
  { rvSyncMemPrivilege cpu with pc := rvTrapPc cpu.csr.stvec trap }

def rvTrapEnterM (cpu : RvCpu) (trap : RvTrap) : RvCpu :=
  let cpu := { cpu with
    csr := { cpu.csr with
      mepc := trap.epc
      mcause := trap.cause
      mtval := trap.tval
      mstatus := rvTrapMstatusM cpu.csr.mstatus cpu.privilege }
    privilege := 3 }
  { rvSyncMemPrivilege cpu with pc := rvTrapPc cpu.csr.mtvec trap }

def rvTrapEnter (cpu : RvCpu) (trap : RvTrap) : RvCpu :=
  if rvTrapDelegated cpu trap then rvTrapEnterS cpu trap else rvTrapEnterM cpu trap

theorem rvTrapEnter_tlb (cpu : RvCpu) (trap : RvTrap) : (rvTrapEnter cpu trap).tlb = cpu.tlb := by
  unfold rvTrapEnter
  split <;> rfl

/-- `rv_do_trap`. Only exceptions are offered to a hook. -/
def rvDoTrap (mc : EmuConfig δ) (m : EmuMachine δ) (h : Nat) (trap : RvTrap) : EmuMachine δ :=
  let enter (m : EmuMachine δ) := m.setCpu h (rvTrapEnter (m.cpus h) trap)
  if trap.isInterrupt then enter m
  else
    match mc.trapHook trap.cause.toNat with
    | none => enter m
    | some hook =>
        let out := hook m h trap
        if out.1 then enter out.2 else out.2

theorem rvDoTrap_noHooks {mc : EmuConfig δ} (hooks : mc.NoHooks) (m : EmuMachine δ) (h : Nat)
    (trap : RvTrap) : rvDoTrap mc m h trap = m.setCpu h (rvTrapEnter (m.cpus h) trap) := by
  simp only [rvDoTrap, hooks trap.cause.toNat, ite_self]

/-- No hook is offered an interrupt. -/
theorem rvDoTrap_interrupt (mc : EmuConfig δ) (m : EmuMachine δ) (h : Nat) {trap : RvTrap}
    (interrupt : trap.isInterrupt = true) :
    rvDoTrap mc m h trap = m.setCpu h (rvTrapEnter (m.cpus h) trap) := by
  simp only [rvDoTrap, interrupt, if_true]

def rvDoIillegal (mc : EmuConfig δ) (m : EmuMachine δ) (h : Nat) (insn : U32) : EmuMachine δ :=
  rvDoTrap mc m h
    { epc := (m.cpus h).epc, cause := RvCause.iillegal.code, tval := insn.setWidth 64 }

/-! ### Interrupts -/

/-- Interrupt priority order: MEI, MSI, MTI, SEI, SSI, STI. -/
def irqPriority : List Nat :=
  [rvMipMeipBit, rvMipMsipBit, rvMipMtipBit, rvMipSeipBit, rvMipSsipBit, rvMipStipBit]

/-- The set of interrupts `rv_check_interrupts` picks from; zero when none is
taken. M-mode takes priority over S-mode. -/
def rvInterruptTake (cpu : RvCpu) : U64 :=
  let pending := cpu.irqPending &&& cpu.csr.mie
  let mPending := pending &&& ~~~cpu.csr.mideleg
  let mEnabled := cpu.privilege < 3 || cpu.csr.mstatus.getLsbD rvStatusMieBit
  let sPending := pending &&& cpu.csr.mideleg
  let sEnabled :=
    cpu.privilege < 1 || (cpu.privilege == 1 && cpu.csr.mstatus.getLsbD rvStatusSieBit)
  if mEnabled && mPending ≠ 0 then mPending
  else if sEnabled && sPending ≠ 0 then sPending
  else 0

def rvInterruptCause (cpu : RvCpu) : Option Nat :=
  irqPriority.find? fun i => (rvInterruptTake cpu).getLsbD i

def rvInterruptTrap (pc : U64) (causeBit : Nat) : RvTrap where
  epc := pc
  cause := rvCauseIntrFlag ||| BitVec.ofNat 64 causeBit
  tval := 0

def rvCheckInterrupts (mc : EmuConfig δ) (m : EmuMachine δ) (h : Nat) : EmuMachine δ :=
  match rvInterruptCause (m.cpus h) with
  | none => m
  | some causeBit => rvDoTrap mc m h (rvInterruptTrap (m.cpus h).pc causeBit)

end Riscmulator
