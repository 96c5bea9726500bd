import Riscmulator.Insn

/-! The A extension, from `rv_impl/atomics.c`. Each operation runs under the
machine's `atomic_lock`, so it is one function of the machine. -/

namespace Riscmulator

variable {δ : Type}

def amoLr : BitVec 5 := 0x02
def amoSc : BitVec 5 := 0x03

/-- What an atomic instruction comes to before its result register is written. -/
inductive AtomicOutcome (δ : Type)
  | iillegal (m : EmuMachine δ)
  | trap (m : EmuMachine δ) (trap : RvTrap)
  | lr (m : EmuMachine δ) (addr val : U64)
  | sc (m : EmuMachine δ) (addr : U64) (success : Bool)
  | amo (m : EmuMachine δ) (addr old : U64)

def rvAtomicSizeExp (insn : U32) : Fin 4 := if rvInsnFunct3 insn = 2 then 2 else 3

def rvAtomicWidth (insn : U32) : Nat := if rvInsnFunct3 insn = 2 then 4 else 8

def rvAtomicFault (m : EmuMachine δ) (h : Nat) (r : RvMemResult) (mode : RvAccess) (addr : U64) :
    AtomicOutcome δ :=
  .trap m { cause := (rvMemCause r mode).code, epc := (m.cpus h).epc, tval := addr }

def rvAtomicLr (mc : EmuConfig δ) (m : EmuMachine δ) (h : Nat) (insn : U32) (addr : U64)
    (access : VirtAccess δ := rvAccessVirt mc) : AtomicOutcome δ :=
  let mhartid := (m.cpus h).csr.mhartid.toNat
  if rvInsnRs2 insn ≠ 0 then .iillegal m
  else
    let out := access m h addr 0 (rvAtomicSizeExp insn) .load
    if out.res ≠ .ok then rvAtomicFault out.machine h out.res .load addr
    else
      let val := out.data.getD 0
      .lr { out.machine with
          reservations := Function.update out.machine.reservations mhartid ⟨addr, true⟩ }
        addr (if rvInsnFunct3 insn = 2 then sext32 val else val)

/-- SC.W and SC.D: only the hart's own reservation is dropped. -/
def rvAtomicSc (mc : EmuConfig δ) (m : EmuMachine δ) (h : Nat) (insn : U32) (addr : U64)
    (access : VirtAccess δ := rvAccessVirt mc) : AtomicOutcome δ :=
  let mhartid := (m.cpus h).csr.mhartid.toNat
  let rs2val := m.xreg h (rvInsnRs2 insn)
  let res := m.reservations mhartid
  if res.valid && res.addr == addr then
    let out := access m h addr rs2val (rvAtomicSizeExp insn) .store
    if out.res ≠ .ok then rvAtomicFault out.machine h out.res .store addr
    else
      let kept := out.machine.reservations mhartid
      .sc { out.machine with
          reservations :=
            Function.update out.machine.reservations mhartid { kept with valid := false } }
        addr true
  else .sc m addr false

/-- The new memory value of an AMO; `none` for an unlisted `funct5`. -/
def rvAmoNewval (insn : U32) (old rs2val : U64) : Option U64 :=
  let is32 := rvInsnFunct3 insn = 2
  let lhs := if is32 then zext32 old else old
  let rhs := if is32 then zext32 rs2val else rs2val
  let lhsS := if is32 then sext32 old else old
  let rhsS := if is32 then sext32 rs2val else rs2val
  match rvInsnFunct5 insn with
  | 0x01 => some rhs
  | 0x00 => some (lhs + rhs)
  | 0x04 => some (lhs ^^^ rhs)
  | 0x08 => some (lhs ||| rhs)
  | 0x0C => some (lhs &&& rhs)
  | 0x10 => some (if lhsS.slt rhsS then lhs else rhs)
  | 0x14 => some (if rhsS.slt lhsS then lhs else rhs)
  | 0x18 => some (if lhs < rhs then lhs else rhs)
  | 0x1C => some (if lhs > rhs then lhs else rhs)
  | _ => none

/-- The loop over the reservations at the end of an AMO: those whose address
equals the written one are dropped. -/
def rvInvalReservations (mc : EmuConfig δ) (reservations : Nat → RvReservation) (addr : U64) :
    Nat → RvReservation := fun i =>
  let r := reservations i
  if i < mc.cpuCount ∧ r.valid ∧ r.addr = addr then { r with valid := false } else r

def rvAtomicAmo (mc : EmuConfig δ) (m : EmuMachine δ) (h : Nat) (insn : U32) (addr : U64)
    (access : VirtAccess δ := rvAccessVirt mc) : AtomicOutcome δ :=
  let rs2val := m.xreg h (rvInsnRs2 insn)
  let is32 := rvInsnFunct3 insn = 2
  let out := access m h addr 0 (rvAtomicSizeExp insn) .amo
  if out.res ≠ .ok then rvAtomicFault out.machine h out.res .amo addr
  else
    let old := if is32 then sext32 (out.data.getD 0) else out.data.getD 0
    match rvAmoNewval insn old rs2val with
    | none => .iillegal out.machine
    | some newval =>
        let stored := access out.machine h addr newval (rvAtomicSizeExp insn) .store
        if stored.res ≠ .ok then rvAtomicFault stored.machine h stored.res .store addr
        else
          .amo { stored.machine with
              reservations := rvInvalReservations mc stored.machine.reservations addr }
            addr old

/-- `rv_atomic_op` up to the write of `rd`. -/
def rvAtomicExec (mc : EmuConfig δ) (m : EmuMachine δ) (h : Nat) (insn : U32)
    (access : VirtAccess δ := rvAccessVirt mc) : AtomicOutcome δ :=
  let funct3 := rvInsnFunct3 insn
  let funct5 := rvInsnFunct5 insn
  let addr := m.xreg h (rvInsnRs1 insn)
  let alignMask : U64 := if funct3 = 2 then 3 else 7
  if funct3 ≠ 2 ∧ funct3 ≠ 3 then .iillegal m
  else if (addr &&& alignMask) ≠ 0 then
    .trap m
      { epc := (m.cpus h).epc
        cause := if funct5 = amoLr then RvCause.lalign.code else RvCause.salign.code
        tval := addr }
  else if funct5 = amoLr then rvAtomicLr mc m h insn addr access
  else if funct5 = amoSc then rvAtomicSc mc m h insn addr access
  else rvAtomicAmo mc m h insn addr access

def rvAtomicOp (mc : EmuConfig δ) (m : EmuMachine δ) (h : Nat) (insn : U32)
    (access : VirtAccess δ := rvAccessVirt mc) : EmuMachine δ :=
  match rvAtomicExec mc m h insn access with
  | .iillegal m => rvDoIillegal mc m h insn
  | .trap m trap => rvDoTrap mc m h trap
  | .lr m _ val => m.writeXreg h (rvInsnRd insn) val
  | .sc m _ success => m.writeXreg h (rvInsnRd insn) (if success then 0 else 1)
  | .amo m _ old => m.writeXreg h (rvInsnRd insn) old

end Riscmulator
