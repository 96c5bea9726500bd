import Riscmulator.Base
import Riscmulator.Atomics
import Riscmulator.Float
import Riscmulator.Decompress

/-! Fetch, dispatch and the step of one hart, from `rv_cpu.c`. -/

namespace Riscmulator

variable {δ : Type}

/-- `rv_forcefeed_insn`: execute one instruction word. -/
def rvForcefeedInsn (mc : EmuConfig δ) (m : EmuMachine δ) (h : Nat) (insn : U32)
    (access : VirtAccess δ := rvAccessVirt mc) : EmuMachine δ :=
  match rvOpMajOf insn with
  | some .op | some .opImm | some .op32 | some .opImm32 => rvBaseOp mc m h insn
  | some .load | some .loadFp => rvBaseLoad mc m h insn access
  | some .store | some .storeFp => rvBaseStore mc m h insn access
  | some .jal => rvBaseJal m h insn
  | some .jalr => rvBaseJalr m h insn
  | some .lui | some .auipc => rvBaseLui m h insn
  | some .system => rvBaseSystem mc m h insn
  | some .branch => rvBaseBranch mc m h insn
  | some .miscMem => rvBaseMiscmem m h insn
  | some .amo => rvAtomicOp mc m h insn access
  | some .opFp => rvFloatOpFp mc m h insn
  | some .madd | some .nmadd | some .msub | some .nmsub => rvFloatFmadd mc m h insn
  | none => rvDoIillegal mc m h insn

inductive FetchOutcome (δ : Type)
  | fault (m : EmuMachine δ) (trap : RvTrap)
  /-- A compressed encoding that does not expand. -/
  | illegal (m : EmuMachine δ) (hw : U16)
  /-- An instruction word, with `epc` and `pc` already updated. -/
  | word (m : EmuMachine δ) (insn : U32)

/-- Commit a fetched word: `epc` is where it was fetched, `pc` is past it. -/
def rvFetched (m : EmuMachine δ) (h : Nat) (insn : U32) (len : U64) : FetchOutcome δ :=
  let cpu := m.cpus h
  .word (m.setCpu h { cpu with epc := cpu.pc, pc := cpu.pc + len }) insn

/-- The fetch half of `rv_step_insn`. `pc` is read again after each access. -/
def rvFetchInsn (mc : EmuConfig δ) (m : EmuMachine δ) (h : Nat)
    (access : VirtAccess δ := rvAccessVirt mc) : FetchOutcome δ :=
  let fault (out : MemOutcome δ) (tval : U64) : FetchOutcome δ :=
    .fault out.machine
      { cause := (rvMemCause out.res .insn).code, epc := (out.machine.cpus h).pc, tval := tval }
  let low := access m h (m.cpus h).pc 0 1 .insn
  let pc := (low.machine.cpus h).pc
  let hw : U16 := (low.data.getD 0).setWidth 16
  if low.res ≠ .ok then fault low pc
  else if hw.extractLsb' 0 2 ≠ 3 then
    match rvDecompress hw with
    | none =>
        let cpu := low.machine.cpus h
        .illegal (low.machine.setCpu h { cpu with epc := cpu.pc }) hw
    | some insn => rvFetched low.machine h insn 2
  else
    let high := access low.machine h (pc + 2) 0 1 .insn
    if high.res ≠ .ok then fault high (pc + 2)
    else
      let hw2 : U16 := (high.data.getD 0).setWidth 16
      rvFetched high.machine h (hw.setWidth 32 ||| (hw2.setWidth 32 <<< 16)) 4

/-- `rv_step_insn`. Only a step that executes a word checks for interrupts. -/
def rvStepInsnBy (access : VirtAccess δ) (mc : EmuConfig δ) (m : EmuMachine δ) (h : Nat) :
    EmuMachine δ :=
  match rvFetchInsn mc m h access with
  | .fault m trap => rvDoTrap mc m h trap
  | .illegal m hw => rvDoIillegal mc m h (hw.setWidth 32)
  | .word m insn => rvCheckInterrupts mc (rvForcefeedInsn mc m h insn access) h

def rvStepInsn (mc : EmuConfig δ) : EmuMachine δ → Nat → EmuMachine δ :=
  rvStepInsnBy (rvAccessVirt mc) mc

/-- `rv_step_insn` in the host's memory. -/
def hostStepInsn (mc : EmuConfig δ) : EmuMachine δ → Nat → EmuMachine δ :=
  rvStepInsnBy (hostAccessVirt mc) mc

end Riscmulator
