import Riscmulator.Machine
import Riscmulator.Lib.BitField

/-! The core-local interruptor, from `rv_clint.c`. The host clock is an argument
of the functions that read it, in nanoseconds. -/

namespace Riscmulator

def rvClintMsipBit : Nat := 3
def rvClintMtipBit : Nat := 7
def rvClintSize : U64 := 0x10000

def clintNsPerTick : U64 := 100
def clintMsipStride : Nat := 4
def clintMtimecmpBase : Nat := 0x4000
def clintMtimecmpStride : Nat := 8
def clintMtimeOffset : Nat := 0xBFF8

structure RvClint where
  epochNs : U64
  mtimecmp : Nat → U64
  deadlineNs : Nat → U64
  cpuCount : Nat

def rvClintInit (now : U64) (cpuCount : Nat) : RvClint where
  epochNs := now
  mtimecmp := fun _ => 0
  deadlineNs := fun _ => BitVec.allOnes 64
  cpuCount := cpuCount

def rvClintMtime (clint : RvClint) (now : U64) : U64 := (now - clint.epochNs) / clintNsPerTick

def DeviceBus.setIrq {δ : Type} (bus : DeviceBus δ) (hart : Nat) (mask : U64) : DeviceBus δ :=
  { bus with irqPending := Function.update bus.irqPending hart (bus.irqPending hart ||| mask) }

def DeviceBus.clearIrq {δ : Type} (bus : DeviceBus δ) (hart : Nat) (mask : U64) : DeviceBus δ :=
  { bus with irqPending := Function.update bus.irqPending hart (bus.irqPending hart &&& ~~~mask) }

theorem setIrq_bit {δ : Type} (bus : DeviceBus δ) (hart pos : Nat) (inside : pos < 64)
    (h line : Nat) :
    ((bus.setIrq hart (bit pos)).irqPending h).getLsbD line =
      ((bus.irqPending h).getLsbD line || (decide (h = hart) && decide (line = pos))) := by
  simp only [DeviceBus.setIrq, bit]
  by_cases mine : h = hart
  · subst mine
    rw [Function.update_self, BitField.getLsbD_setBit]
    by_cases here : line = pos
    · simp [here, inside]
    · simp [here]
  · rw [Function.update_of_ne mine]
    simp [mine]

theorem clearIrq_bit {δ : Type} (bus : DeviceBus δ) (hart pos h line : Nat) :
    ((bus.clearIrq hart (bit pos)).irqPending h).getLsbD line =
      ((bus.irqPending h).getLsbD line && !(decide (h = hart) && decide (line = pos))) := by
  simp only [DeviceBus.clearIrq, bit]
  by_cases mine : h = hart
  · subst mine
    rw [Function.update_self, BitField.getLsbD_clearBit]
    simp
  · rw [Function.update_of_ne mine]
    simp [mine]

/-- `rv_clint_set_mtimecmp`. The deadline is computed modulo 2^64. -/
def rvClintSetMtimecmp (bus : DeviceBus RvClint) (hart : Nat) (value : U64) : DeviceBus RvClint :=
  let bus := bus.clearIrq hart (bit rvClintMtipBit)
  let clint := bus.device
  let deadline := clint.epochNs + value * clintNsPerTick
  { bus with
    device := { clint with
      mtimecmp := Function.update clint.mtimecmp hart value
      deadlineNs := Function.update clint.deadlineNs hart deadline }
    clintTimerArmed := Function.update bus.clintTimerArmed hart true }

def rvClintCheckTimer (bus : DeviceBus RvClint) (hart : Nat) (now : U64) : DeviceBus RvClint :=
  if now ≥ bus.device.deadlineNs hart then
    let bus := bus.setIrq hart (bit rvClintMtipBit)
    { bus with clintTimerArmed := Function.update bus.clintTimerArmed hart false }
  else bus

/-- The check `cpu_thread` makes after each instruction. -/
def cpuThreadCheckTimer (bus : DeviceBus RvClint) (hart : Nat) (now : U64) : DeviceBus RvClint :=
  if bus.clintTimerArmed hart then rvClintCheckTimer bus hart now else bus

inductive ClintReg
  | mtime
  | mtimecmp (hart : Nat)
  | msip (hart : Nat)
  | none
  deriving DecidableEq, Repr

def clintDecode (clint : RvClint) (offset : U64) (size : U8) : ClintReg :=
  let offset := offset.toNat
  if offset = clintMtimeOffset ∧ size = 8 then .mtime
  else if offset ≥ clintMtimecmpBase ∧ size = 8 then
    let idx := (offset - clintMtimecmpBase) / clintMtimecmpStride
    if idx < clint.cpuCount ∧ (offset - clintMtimecmpBase) % clintMtimecmpStride = 0 then
      .mtimecmp idx
    else .none
  else if offset < clintMtimecmpBase ∧ size = 4 then
    let idx := offset / clintMsipStride
    if idx < clint.cpuCount ∧ offset % clintMsipStride = 0 then .msip idx else .none
  else .none

def clintRead (now : U64) (bus : DeviceBus RvClint) (offset : U64) (size : U8) :
    (Bool × U64) × DeviceBus RvClint :=
  match clintDecode bus.device offset size with
  | .mtime => ((true, rvClintMtime bus.device now), bus)
  | .mtimecmp hart => ((true, bus.device.mtimecmp hart), bus)
  | .msip hart => ((true, (bus.irqPending hart >>> rvClintMsipBit) &&& 1), bus)
  | .none => ((false, 0), bus)

/-- A write of `mtime` moves the epoch and recomputes every deadline. -/
def clintWriteMtime (clint : RvClint) (now value : U64) : RvClint :=
  let newEpoch := now - value * clintNsPerTick
  { clint with
    epochNs := newEpoch
    deadlineNs := fun i =>
      if i < clint.cpuCount then newEpoch + clint.mtimecmp i * clintNsPerTick
      else clint.deadlineNs i }

def clintWrite (now : U64) (bus : DeviceBus RvClint) (offset : U64) (size : U8) (value : U64) :
    Bool × DeviceBus RvClint :=
  match clintDecode bus.device offset size with
  | .mtime => (true, { bus with device := clintWriteMtime bus.device now value })
  | .mtimecmp hart => (true, rvClintSetMtimecmp bus hart value)
  | .msip hart =>
      (true,
        if value.getLsbD 0 then bus.setIrq hart (bit rvClintMsipBit)
        else bus.clearIrq hart (bit rvClintMsipBit))
  | .none => (false, bus)

/-- `rv_clint_mmio_region`, at one time of the host clock. -/
def rvClintMmioRegion (base now : U64) : EmuMmioRegion RvClint where
  base := base
  size := rvClintSize
  read := clintRead now
  write := clintWrite now

end Riscmulator
