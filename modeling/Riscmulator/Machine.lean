import Riscmulator.Pmp
import Riscmulator.Fpu

/-! The machine: RAM, cores, reservations and MMIO regions, and the physical
access functions of `emu_machine.c`. -/

namespace Riscmulator

/-- RAM access mode. An AMO access loads, but faults as a store. -/
inductive RvAccess
  | insn | amo | load | store
  deriving DecidableEq, Repr

/-- Sizes of accesses are given by their log-base 2, in `Fin 4`. -/
instance sizeExp_neZero : NeZero (4 : Nat) := ⟨by decide⟩

inductive RvMemResult
  | ok | accessFault | pageFault
  deriving DecidableEq, Repr

structure RvTrap where
  epc : U64
  tval : U64
  cause : U64
  deriving DecidableEq, Repr

@[ext] structure RvReservation where
  addr : U64
  valid : Bool
  deriving DecidableEq, Repr

/-- What a device callback can see and change: the devices' own state and the
interrupt lines and timer flags of the harts. -/
structure DeviceBus (δ : Type) where
  device : δ
  irqPending : Nat → U64
  clintTimerArmed : Nat → Bool

structure EmuMmioRegion (δ : Type) where
  base : U64
  size : U64
  read : DeviceBus δ → U64 → U8 → (Bool × U64) × DeviceBus δ
  write : DeviceBus δ → U64 → U8 → U64 → Bool × DeviceBus δ

/-- The part of `struct emu_machine` that changes while it runs. Cores and
reservations are indexed by hart, RAM by the offset from `ram_start`.
`feround` is the host rounding mode of the thread that runs a hart, and
`aborted` records that the host process called `abort`. -/
structure EmuMachine (δ : Type) where
  ram : U64 → U8
  cpus : Nat → RvCpu
  reservations : Nat → RvReservation
  device : δ
  feround : Nat → FeRound
  aborted : Bool

/-- The part of `struct emu_machine` that is fixed once it is set up. A trap
hook returns whether the normal trap mechanism activates. -/
structure EmuConfig (δ : Type) where
  ramStart : U64
  ramEnd : U64
  cpuCount : Nat
  mmio : List (EmuMmioRegion δ)
  trapHook : Nat → Option (EmuMachine δ → Nat → RvTrap → Bool × EmuMachine δ)
  rvFloatExactMath : Bool
  fpu : HostFpu
  softfloat : Softfloat

variable {δ : Type}

def EmuConfig.NoHooks (mc : EmuConfig δ) : Prop := ∀ cause, mc.trapHook cause = none

/-- A machine with `ramSize` bytes of RAM and no devices or hooks. -/
def EmuConfig.ramOnly (ramStart ramSize : U64) (cpuCount : Nat) : EmuConfig Unit where
  ramStart := ramStart
  ramEnd := ramStart + ramSize
  cpuCount := cpuCount
  mmio := []
  trapHook := fun _ => none
  rvFloatExactMath := false
  fpu := default
  softfloat := default

def EmuMachine.setCpu (m : EmuMachine δ) (h : Nat) (cpu : RvCpu) : EmuMachine δ :=
  { m with cpus := Function.update m.cpus h cpu }

@[simp] theorem EmuMachine.setCpu_same (m : EmuMachine δ) (h : Nat) (cpu : RvCpu) :
    (m.setCpu h cpu).cpus h = cpu := by
  simp [EmuMachine.setCpu]

theorem EmuMachine.setCpu_other (m : EmuMachine δ) {h i : Nat} (cpu : RvCpu) (hne : i ≠ h) :
    (m.setCpu h cpu).cpus i = m.cpus i := by
  simp [EmuMachine.setCpu, hne]

theorem EmuMachine.setCpu_self (m : EmuMachine δ) (h : Nat) : m.setCpu h (m.cpus h) = m := by
  rw [EmuMachine.setCpu, Function.update_eq_self]

def EmuMachine.bus (m : EmuMachine δ) : DeviceBus δ where
  device := m.device
  irqPending := fun h => (m.cpus h).irqPending
  clintTimerArmed := fun h => (m.cpus h).clintTimerArmed

def EmuMachine.setBus (m : EmuMachine δ) (bus : DeviceBus δ) : EmuMachine δ :=
  { m with
    device := bus.device
    cpus := fun h => { m.cpus h with
      irqPending := bus.irqPending h
      clintTimerArmed := bus.clintTimerArmed h } }

/-! ### Bytes -/

/-- The `n` bytes of RAM from `idx` on, little-endian. -/
def ramLoad (ram : U64 → U8) (idx : U64) : Nat → U64
  | 0 => 0
  | n + 1 => (ram idx).setWidth 64 ||| (ramLoad ram (idx + 1) n <<< 8)

/-- RAM after the `n` low bytes of `data` are copied to `idx`. -/
def ramStore (ram : U64 → U8) (idx data : U64) (n : Nat) : U64 → U8 := fun j =>
  if (j - idx).toNat < n then (data >>> (8 * (j - idx).toNat)).setWidth 8 else ram j

/-- A buffer whose `n` low bytes are replaced by those of `val`. -/
def spliceLow (data val : U64) (n : Nat) : U64 :=
  ((data >>> (8 * n)) <<< (8 * n)) ||| val

def lowBytes (data : U64) (n : Nat) : U64 := data &&& (bit (8 * n) - 1)

/-- One transfer between a caller's buffer and physical memory: `len` bytes
from physical address `addr` on, in RAM or in a device. -/
structure PhysTouch where
  addr : U64
  len : U64
  inRam : Bool
  deriving DecidableEq, Repr

/-- Outcome of a physical access: result, machine, caller's buffer (`none` for a
null pointer) and the transfers made, in order. -/
structure MemOutcome (δ : Type) where
  res : RvMemResult
  machine : EmuMachine δ
  data : Option U64
  touched : List PhysTouch

/-- A `memcpy` between the buffer and `machine->ram + addr - machine->ram_start`. -/
def ramTransfer (mc : EmuConfig δ) (m : EmuMachine δ) (addr : U64) (data : Option U64)
    (len : U64) (mode : RvAccess) : MemOutcome δ :=
  let idx := addr - mc.ramStart
  match data with
  | none => ⟨.ok, m, none, []⟩
  | some d =>
      if mode = .store then
        ⟨.ok, { m with ram := ramStore m.ram idx d len.toNat }, some d, [⟨addr, len, true⟩]⟩
      else
        ⟨.ok, m, some (spliceLow d (ramLoad m.ram idx len.toNat) len.toNat),
          [⟨addr, len, true⟩]⟩

/-! ### MMIO -/

/-- `mmio_dispatch`: one access to a known region; a null buffer is a no-op. -/
def mmioDispatch (m : EmuMachine δ) (r : EmuMmioRegion δ) (addr : U64) (data : Option U64)
    (size : U8) (mode : RvAccess) : MemOutcome δ :=
  match data with
  | none => ⟨.ok, m, none, []⟩
  | some d =>
      let touch : PhysTouch := ⟨addr, size.setWidth 64, false⟩
      if mode = .store then
        let out := r.write m.bus (addr - r.base) size (lowBytes d size.toNat)
        ⟨if out.1 then .ok else .accessFault, m.setBus out.2, some d, [touch]⟩
      else
        let out := r.read m.bus (addr - r.base) size
        ⟨if out.1.1 then .ok else .accessFault, m.setBus out.2,
          some (if out.1.1 then spliceLow d (lowBytes out.1.2 size.toNat) size.toNat else d),
          [touch]⟩

def EmuMmioRegion.limit (r : EmuMmioRegion δ) : U64 := r.base + r.size

/-- The test `misaligned_access` finds a region by. -/
def EmuMmioRegion.holdsByte (r : EmuMmioRegion δ) (addr : U64) : Bool :=
  r.base ≤ addr && addr < r.limit

/-- The test `rv_access_phys` finds a region by. -/
def EmuMmioRegion.holdsRange (r : EmuMmioRegion δ) (addr size : U64) : Bool :=
  r.base ≤ addr && addr + size ≤ r.limit

/-! ### Physical accesses -/

def ramHoldsByte (mc : EmuConfig δ) (addr : U64) : Bool :=
  mc.ramStart ≤ addr && addr + 1 ≤ mc.ramEnd

/-- Length of the part of `[addr, addr + size)` below `limit`, as the code clips it. -/
def clipPart (addr size limit : U64) : U64 :=
  if addr + size > limit then limit - addr else size

/-- `misaligned_access`. Every round consumes at least one byte, so `size`
rounds are enough; the buffer pointer is not advanced between rounds. -/
def misalignedAccess (mc : EmuConfig δ) : Nat → EmuMachine δ → U64 → Option U64 → U64 →
    RvAccess → MemOutcome δ
  | 0, m, _, data, _, _ => ⟨.ok, m, data, []⟩
  | fuel + 1, m, addr, data, size, mode =>
      if size = 0 then ⟨.ok, m, data, []⟩
      else if ramHoldsByte mc addr then
        let part := clipPart addr size mc.ramEnd
        let out := ramTransfer mc m addr data part mode
        let rest := misalignedAccess mc fuel out.machine (addr + part) out.data (size - part) mode
        { rest with touched := out.touched ++ rest.touched }
      else
        match mc.mmio.find? (·.holdsByte addr) with
        | none => ⟨.accessFault, m, data, []⟩
        | some r =>
            let part := clipPart addr size r.limit
            let out := mmioDispatch m r addr data (part.setWidth 8) mode
            if out.res ≠ .ok then out
            else
              let rest :=
                misalignedAccess mc fuel out.machine (addr + part) out.data (size - part) mode
              { rest with touched := out.touched ++ rest.touched }

def RvAccess.pmpBit : RvAccess → Nat
  | .insn => rvPmpcfgXBit
  | .load => rvPmpcfgRBit
  | .amo | .store => rvPmpcfgWBit

def doPmpCheck (cpu : RvCpu) (addr size : U64) (mode : RvAccess) : RvMemResult :=
  if (rvPmpCheck cpu addr size (cpu.privilege == 3)).getLsbD mode.pmpBit then .ok
  else .accessFault

/-- The two passes of a split access: the first checks, the second commits. -/
def misalignedTwoPass (mc : EmuConfig δ) (m : EmuMachine δ) (addr data size : U64)
    (mode : RvAccess) : MemOutcome δ :=
  let pass := misalignedAccess mc size.toNat m addr none size mode
  if pass.res ≠ .ok then { pass with data := some data }
  else misalignedAccess mc size.toNat pass.machine addr (some data) size mode

def rvAccessPhysPartial (mc : EmuConfig δ) (m : EmuMachine δ) (h : Nat) (addr data size : U64)
    (mode : RvAccess) (ignorePmp : Bool) : MemOutcome δ :=
  if !ignorePmp && doPmpCheck (m.cpus h) addr size mode ≠ .ok then
    ⟨doPmpCheck (m.cpus h) addr size mode, m, some data, []⟩
  else misalignedTwoPass mc m addr data size mode

def ramHoldsRange (mc : EmuConfig δ) (addr size : U64) : Bool :=
  mc.ramStart ≤ addr && addr + size ≤ mc.ramEnd

/-- `rv_access_phys` after its PMP check. -/
def rvAccessPhysUnchecked (mc : EmuConfig δ) (m : EmuMachine δ) (addr data : U64)
    (sizeExp : Fin 4) (mode : RvAccess) : MemOutcome δ :=
  let size := bit sizeExp.val
  if ramHoldsRange mc addr size then ramTransfer mc m addr (some data) size mode
  else if addr % size ≠ 0 then misalignedTwoPass mc m addr data size mode
  else
    match mc.mmio.find? (·.holdsRange addr size) with
    | some r => mmioDispatch m r addr (some data) (size.setWidth 8) mode
    | none => ⟨.accessFault, m, some data, []⟩

def rvAccessPhys (mc : EmuConfig δ) (m : EmuMachine δ) (h : Nat) (addr data : U64)
    (sizeExp : Fin 4) (mode : RvAccess) (ignorePmp : Bool) : MemOutcome δ :=
  if !ignorePmp && doPmpCheck (m.cpus h) addr (bit sizeExp.val) mode ≠ .ok then
    ⟨doPmpCheck (m.cpus h) addr (bit sizeExp.val) mode, m, some data, []⟩
  else rvAccessPhysUnchecked mc m addr data sizeExp mode

/-! ### Machine set-up -/

/-- `emu_machine_init`: zeroed cores numbered by `mhartid`, in M-mode, and
zeroed RAM. -/
def emuMachineInit (device : δ) : EmuMachine δ where
  ram := fun _ => 0
  cpus := fun i => rvSyncMemPrivilege { RvCpu.zero with
    csr := { RvCpu.zero.csr with mhartid := BitVec.ofNat 64 i }
    privilege := 3 }
  reservations := fun _ => ⟨0, false⟩
  device := device
  feround := fun _ => .tonearest
  aborted := false

end Riscmulator
