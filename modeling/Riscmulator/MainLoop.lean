import Riscmulator.IsaSteps
import Riscmulator.Outcomes
import Riscmulator.PmpLocks
import Riscmulator.Lib.Program
import Mathlib.Logic.Relation

/-! The program of `main.c`: a core in M-mode that runs a raw image, with a hook on
environment calls that prints a character or exits. Guests of it are harts of the ISA
with two services. -/

namespace Riscmulator

open Relation

/-! ### The program -/

/-- What the host process has written to `stdout`, and the status it has exited with:
the low byte of what it gives to `exit`. -/
structure HostProcess where
  stdout : List U8
  status : Option U8
  deriving DecidableEq, Repr

/-- `ecall_hook`: `a7` selects a service, `a0` is its argument. -/
def ecallHook (m : EmuMachine HostProcess) (h : Nat) (trap : RvTrap) :
    Bool × EmuMachine HostProcess :=
  let cpu := m.cpus h
  if trap.cause = RvCause.ecallM.code ∧ cpu.xregs 17 = 1 then
    (false, { m with device :=
      { m.device with stdout := m.device.stdout ++ [(cpu.xregs 10).setWidth 8] } })
  else if trap.cause = RvCause.ecallM.code ∧ cpu.xregs 17 = 2 then
    (false, { m with device := { m.device with status := some ((cpu.xregs 10).setWidth 8) } })
  else (true, m)

def mainBase : U64 := 0x10000

def mainConfig (image : List U8) : EmuConfig HostProcess where
  ramStart := mainBase
  ramEnd := mainBase + BitVec.ofNat 64 image.length
  cpuCount := 0
  mmio := []
  trapHook := fun cause => if cause = RvCause.ecallM.code.toNat then some ecallHook else none
  rvFloatExactMath := false
  fpu := default
  softfloat := default

/-- The machine that `main` sets up for the bytes of the file. -/
def mainMachine (image : List U8) : EmuMachine HostProcess where
  ram := fun idx => image[idx.toNat]?.getD 0
  cpus := fun _ => { RvCpu.zero with privilege := 3, pc := mainBase }
  reservations := fun _ => ⟨0, false⟩
  device := ⟨[], none⟩
  feround := fun _ => .tonearest
  aborted := false

/-- One round of the loop in `main`, unless the process has ended. -/
def mainStep (image : List U8) (m : EmuMachine HostProcess) : EmuMachine HostProcess :=
  if m.device.status.isSome || m.aborted then m else rvStepInsn (mainConfig image) m 0

/-! ### Guests -/

/-- A hart of the ISA and what it has printed. -/
structure Guest where
  hart : Rv64.Hart
  stdout : List U8

def ecallWord : U32 := 0x73

/-- The guest is at an environment call for the service that `a7` selects. -/
def Guest.Calls (g : Guest) (service : U64) : Prop :=
  g.hart.fetch isaExpand = some (ecallWord, 4) ∧ g.hart.reg 17 = service

def Guest.printed (g : Guest) : Guest where
  hart := { g.hart with pc := g.hart.pc + 4 }
  stdout := g.stdout ++ [(g.hart.reg 10).setWidth 8]

/-- Steps of a guest: those of the ISA, and calls that print a character. -/
inductive Guest.Step (g : Guest) : Guest → Prop
  | isa {s : Rv64.Hart} (stepped : g.hart.step isaExpand = some s) :
      Guest.Step g ⟨s, g.stdout⟩
  | print (calls : g.Calls 1) : Guest.Step g g.printed

/-- A step on a word that the code accepts. -/
def Guest.Moves (g g' : Guest) : Prop := ¬AtRejectedHint g.hart ∧ g.Step g'

theorem Guest.Calls.moves {g : Guest} (calls : g.Calls 1) : g.Moves g.printed :=
  ⟨not_atRejectedHint calls.1, .print calls⟩

def Guest.Exits (g : Guest) (status : U8) : Prop :=
  g.Calls 2 ∧ (g.hart.reg 10).setWidth 8 = status

/-- The guest that an image starts as. -/
def Guest.start (image : List U8) : Guest where
  hart := ⟨mainBase, ⟨fun _ => 0, rfl⟩, .ofBytes mainBase image⟩
  stdout := []

/-! ### The program runs its guest -/

/-- The machine of the program is the guest `g`. -/
structure Hosts (image : List U8) (m : EmuMachine HostProcess) (g : Guest) : Prop where
  state : InState (mainConfig image) m 0 g.hart
  level : (m.cpus 0).privilege = 3
  device : m.device = ⟨g.stdout, none⟩
  aborted : m.aborted = false

section Calls

variable {δ : Type} {mc : EmuConfig δ} {m : EmuMachine δ} {h : Nat}

theorem rvForcefeedInsn_ecall (level : (m.cpus h).privilege = 3) :
    rvForcefeedInsn mc m h ecallWord =
      rvDoTrap mc m h { epc := (m.cpus h).epc, cause := RvCause.ecallM.code, tval := 0 } := by
  have major : rvOpMajOf ecallWord = some .system := by decide
  have funct3 : rvInsnFunct3 ecallWord = 0 := by decide
  have cause : rvEcallCause 3 = some .ecallM := by decide
  rw [rvForcefeedInsn, major]
  simp only [rvBaseSystem, funct3, level, cause]
  rfl

end Calls

section Rounds

variable {image : List U8} {m : EmuMachine HostProcess} {g g' : Guest}

theorem Hosts.running (hosts : Hosts image m g) :
    mainStep image m = rvStepInsn (mainConfig image) m 0 := by
  rw [mainStep, hosts.device, hosts.aborted]
  rfl

/-- The machine when an environment call reaches the hook. -/
def calledFrom (m : EmuMachine HostProcess) : EmuMachine HostProcess :=
  m.setCpu 0 { m.cpus 0 with epc := (m.cpus 0).pc, pc := (m.cpus 0).pc + 4 }

theorem Hosts.call (hosts : Hosts image m g) {service : U64} (calls : g.Calls service)
    {device : HostProcess}
    (serves : ecallHook (calledFrom m) 0
        { epc := (m.cpus 0).pc, cause := RvCause.ecallM.code, tval := 0 } =
      (false, { calledFrom m with device := device })) :
    rvStepInsn (mainConfig image) m 0 = { calledFrom m with device := device } := by
  have core : (calledFrom m).cpus 0 =
      { m.cpus 0 with epc := (m.cpus 0).pc, pc := (m.cpus 0).pc + 4 } :=
    EmuMachine.setCpu_same m 0 _
  have level : ((calledFrom m).cpus 0).privilege = 3 := by
    rw [core]
    exact hosts.level
  have epc : ((calledFrom m).cpus 0).epc = (m.cpus 0).pc := by rw [core]
  have trapped : rvDoTrap (mainConfig image) (calledFrom m) 0
      { epc := (m.cpus 0).pc, cause := RvCause.ecallM.code, tval := 0 } =
        { calledFrom m with device := device } := by
    rw [rvDoTrap]
    have hook : (mainConfig image).trapHook RvCause.ecallM.code.toNat = some ecallHook := by
      simp only [mainConfig, if_true]
    simp only [RvCause.isInterrupt, hook, serves, Bool.false_eq_true, if_false]
  have quiet : rvInterruptCause (({ calledFrom m with device := device } :
      EmuMachine HostProcess).cpus 0) = none := by
    change rvInterruptCause ((calledFrom m).cpus 0) = none
    rw [core]
    exact hosts.state.free.quiet
  have executed : rvForcefeedInsn (mainConfig image) (calledFrom m) 0 ecallWord =
      { calledFrom m with device := device } := by
    rw [rvForcefeedInsn_ecall level, epc, trapped]
  rw [rvStepInsn, rvStepInsnBy, hosts.state.fetch calls.1 (not_atRejectedHint calls.1), rvFetched]
  change rvCheckInterrupts _ (rvForcefeedInsn _ (calledFrom m) 0 ecallWord) 0 = _
  rw [executed, rvCheckInterrupts, quiet]

theorem Hosts.xreg (hosts : Hosts image m g) (index : BitVec 5) :
    ((calledFrom m).cpus 0).xregs index = g.hart.reg index := by
  rw [calledFrom, EmuMachine.setCpu_same, hosts.state.regs]
  rfl

/-- A step of the guest is a round of the loop. -/
theorem Hosts.step (hosts : Hosts image m g) (moves : g.Moves g') :
    Hosts image (mainStep image m) g' := by
  obtain ⟨accepted, step⟩ := moves
  rw [hosts.running]
  cases step with
  | isa stepped =>
      have done := rvStepInsn_refines hosts.state accepted stepped
      obtain ⟨_, _, _, core⟩ := done.kept.core
      constructor
      · exact done.state
      · rw [core]
        exact hosts.level
      · rw [done.kept.others]
        exact hosts.device
      · rw [done.kept.others]
        exact hosts.aborted
  | print calls =>
      have serves : ecallHook (calledFrom m) 0
          { epc := (m.cpus 0).pc, cause := RvCause.ecallM.code, tval := 0 } =
          (false, { calledFrom m with device := ⟨g.printed.stdout, none⟩ }) := by
        have service : ((calledFrom m).cpus 0).xregs 17 = 1 := by rw [hosts.xreg, calls.2]
        have device : (calledFrom m).device = ⟨g.stdout, none⟩ := hosts.device
        simp only [ecallHook, service, hosts.xreg, device]
        rfl
      rw [hosts.call calls serves]
      have core : (calledFrom m).cpus 0 =
          { m.cpus 0 with epc := (m.cpus 0).pc, pc := (m.cpus 0).pc + 4 } :=
        EmuMachine.setCpu_same m 0 _
      constructor
      · constructor
        · change ((calledFrom m).cpus 0).pc = g.hart.pc + 4
          rw [core, hosts.state.pc]
        · change ((calledFrom m).cpus 0).xregs = g.hart.regs.read
          rw [core, hosts.state.regs]
        · exact hosts.state.ram
        · change Undisturbed ((calledFrom m).cpus 0) g.hart.mem.held
          rw [core]
          exact hosts.state.free.regs _ _ _
      · change ((calledFrom m).cpus 0).privilege = 3
        rw [core]
        exact hosts.level
      · rfl
      · exact hosts.aborted

theorem Hosts.exit (hosts : Hosts image m g) {status : U8} (exits : g.Exits status) :
    (mainStep image m).device = ⟨g.stdout, some status⟩ := by
  have serves : ecallHook (calledFrom m) 0
      { epc := (m.cpus 0).pc, cause := RvCause.ecallM.code, tval := 0 } =
      (false, { calledFrom m with device := ⟨g.stdout, some status⟩ }) := by
    have service : ((calledFrom m).cpus 0).xregs 17 = 2 := by rw [hosts.xreg, exits.1.2]
    have device : (calledFrom m).device = ⟨g.stdout, none⟩ := hosts.device
    simp only [ecallHook, service, hosts.xreg, device, exits.2]
    rfl
  rw [hosts.running, hosts.call exits.1 serves]

end Rounds

theorem mainMachine_hosts {image : List U8} (fits : mainBase.toNat + image.length < 2 ^ 64) :
    Hosts image (mainMachine image) (Guest.start image) := by
  refine ⟨?_, rfl, rfl, rfl⟩
  constructor
  · rfl
  · rfl
  · intro a byte present
    have inside : (a - mainBase).toNat < image.length := (List.getElem?_eq_some_iff.mp present).1
    have length : (BitVec.ofNat 64 image.length).toNat = image.length := by
      rw [BitVec.toNat_ofNat]
      exact Nat.mod_eq_of_lt (by omega)
    refine ⟨?_, ?_, ?_⟩
    · change mainBase ≤ a
      rw [BitVec.le_def]
      rw [BitVec.toNat_sub] at inside
      omega
    · change a < mainBase + BitVec.ofNat 64 image.length
      rw [BitVec.lt_def, BitVec.toNat_add, length]
      rw [BitVec.toNat_sub] at inside
      omega
    · have loaded : image[(a - mainBase).toNat]? = some byte := present
      change image[(a - mainBase).toNat]?.getD 0 = byte
      rw [loaded]
      rfl
  · have unlocked : ∀ i, (((mainMachine image).cpus 0).csr.pmpcfgUnpacked i).getLsbD
        rvPmpcfgLBit = false := fun i =>
      congrArg (fun cfg : U8 => cfg.getLsbD rvPmpcfgLBit) (emuMachineInit_pmpOff () 0 i)
    exact .machine (rvIsBare_off rfl) rfl unlocked (rvInterruptCause_unasserted rfl) _

/-- Once the process has ended, nothing happens any more. -/
theorem mainStep_ended {image : List U8} {m : EmuMachine HostProcess} {status : U8}
    (ended : m.device.status = some status) (k : Nat) : (mainStep image)^[k] m = m := by
  have fixed : mainStep image m = m := by
    rw [mainStep, ended]
    rfl
  exact Function.iterate_fixed fixed k

/-- The program runs every step of its guest. -/
theorem main_hosts {image : List U8} (fits : mainBase.toNat + image.length < 2 ^ 64) {g : Guest}
    (runs : ReflTransGen Guest.Moves (Guest.start image) g) :
    ∃ n, Hosts image ((mainStep image)^[n] (mainMachine image)) g := by
  induction runs with
  | refl => exact ⟨0, mainMachine_hosts fits⟩
  | tail _ step ih =>
      obtain ⟨n, hosts⟩ := ih
      refine ⟨n + 1, ?_⟩
      rw [Function.iterate_succ_apply']
      exact hosts.step step

theorem Hosts.ends {image : List U8} {m : EmuMachine HostProcess} {g : Guest} {n : Nat}
    (hosts : Hosts image ((mainStep image)^[n] m) g) {status : U8} (exits : g.Exits status) {k : Nat}
    (later : k ≥ n + 1) : ((mainStep image)^[k] m).device = ⟨g.stdout, some status⟩ := by
  obtain ⟨rest, rfl⟩ := Nat.exists_eq_add_of_le later
  have ended := hosts.exit exits
  rw [← Function.iterate_succ_apply' (mainStep image)] at ended
  rw [Nat.add_comm, Function.iterate_add_apply, mainStep_ended (congrArg HostProcess.status ended),
    ended]

/-- Whatever a guest prints until it exits is what the program prints before it exits with
the guest's status. -/
theorem main_exits (image : List U8) (fits : mainBase.toNat + image.length < 2 ^ 64) (g : Guest)
    (runs : ReflTransGen Guest.Moves (Guest.start image) g) (status : U8) (exits : g.Exits status) :
    ∃ n, ∀ k ≥ n, ((mainStep image)^[k] (mainMachine image)).device = ⟨g.stdout, some status⟩ := by
  obtain ⟨n, hosts⟩ := main_hosts fits runs
  exact ⟨n + 1, fun k later => hosts.ends exits later⟩

/-- `li a7, 2; ecall`. -/
def exitImage : List U8 := Rv64.codeBytes [0x00200893, ecallWord]

/-- The guest of `exitImage` at its call. -/
def exitGuest : Guest := ⟨(Guest.start exitImage).hart.set 17 2 (mainBase + 4), []⟩

theorem main_exits_at_once :
    ∃ n, ∀ k ≥ n, ((mainStep exitImage)^[k] (mainMachine exitImage)).device = ⟨[], some 0⟩ := by
  have code : Rv64.CodeAt (.ofBytes mainBase exitImage) mainBase [0x00200893, ecallWord] := by
    rw [← List.append_nil exitImage]
    exact Rv64.codeAt_ofBytes mainBase [] (by decide)
  have before : Rv64.CodeAt (Guest.start exitImage).hart.mem mainBase [0x00200893, ecallWord] := code
  have after : Rv64.CodeAt exitGuest.hart.mem mainBase [0x00200893, ecallWord] := code
  have li : (Guest.start exitImage).hart.step isaExpand = some exitGuest.hart :=
    before.step (k := 0) rfl rfl (by decide) (i := .alu ⟨.add, false, 17, 0, .imm 2⟩) (by decide)
  have first : (Guest.start exitImage).hart.fetch isaExpand = some (0x00200893, 4) :=
    before.fetch (k := 0) rfl rfl (by decide)
  have call : exitGuest.hart.fetch isaExpand = some (ecallWord, 4) :=
    after.fetch (k := 1) rfl rfl (by decide)
  have moves : (Guest.start exitImage).Moves exitGuest := ⟨not_atRejectedHint first, .isa li⟩
  exact main_exits exitImage (by decide) exitGuest (.single moves) 0 ⟨⟨call, rfl⟩, rfl⟩

end Riscmulator
