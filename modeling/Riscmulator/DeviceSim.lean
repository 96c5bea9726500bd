import Riscmulator.BusLockstep
import Riscmulator.Device.Clint
import Riscmulator.PcAlign

/-! What runs on the harts cannot tell a device from one that simulates it. -/

namespace Riscmulator

open Transition

variable {δ δ' : Type}

/-! ### Simulation of a device -/

/-- Related devices that raise the same lines and arm the same timers. -/
structure AlikeBus (D : δ → δ' → Prop) (bus : DeviceBus δ) (bus' : DeviceBus δ') : Prop where
  device : D bus.device bus'.device
  irqPending : bus'.irqPending = bus.irqPending
  clintTimerArmed : bus'.clintTimerArmed = bus.clintTimerArmed

/-- The callbacks of the second region answer as those of the first, and keep the relation. -/
structure RegionSim (D : δ → δ' → Prop) (r : EmuMmioRegion δ) (r' : EmuMmioRegion δ') : Prop where
  base : r'.base = r.base
  size : r'.size = r.size
  read : ∀ {bus bus'}, AlikeBus D bus bus' → ∀ offset size,
    (r'.read bus' offset size).1 = (r.read bus offset size).1 ∧
      AlikeBus D (r.read bus offset size).2 (r'.read bus' offset size).2
  write : ∀ {bus bus'}, AlikeBus D bus bus' → ∀ offset size data,
    (r'.write bus' offset size data).1 = (r.write bus offset size data).1 ∧
      AlikeBus D (r.write bus offset size data).2 (r'.write bus' offset size data).2

/-- One set-up on the devices of another that simulate its own. -/
structure ConfigSim (D : δ → δ' → Prop) (mc : EmuConfig δ) (mc' : EmuConfig δ') : Prop where
  hooks : mc.NoHooks
  hooks' : mc'.NoHooks
  host : SameHost mc mc'
  ramStart : mc'.ramStart = mc.ramStart
  ramEnd : mc'.ramEnd = mc.ramEnd
  regions : List.Forall₂ (RegionSim D) mc.mmio mc'.mmio

/-- The same machine on related devices. -/
structure OnDevices (D : δ → δ' → Prop) (m : EmuMachine δ) (m' : EmuMachine δ') : Prop where
  device : D m.device m'.device
  rest : m' = ⟨m.ram, m.cpus, m.reservations, m'.device, m.feround, m.aborted⟩

section Sim

variable {D : δ → δ' → Prop} {mc : EmuConfig δ} {mc' : EmuConfig δ'} {m : EmuMachine δ}
  {m' : EmuMachine δ'}

theorem OnDevices.bus (on : OnDevices D m m') : AlikeBus D m.bus m'.bus := by
  refine ⟨on.device, ?_, ?_⟩
  · rw [on.rest]
    rfl
  · rw [on.rest]
    rfl

theorem OnDevices.setBus (on : OnDevices D m m') {bus : DeviceBus δ} {bus' : DeviceBus δ'}
    (alike : AlikeBus D bus bus') : OnDevices D (m.setBus bus) (m'.setBus bus') := by
  refine ⟨alike.device, ?_⟩
  rw [EmuMachine.setBus, alike.irqPending, alike.clintTimerArmed, on.rest]
  rfl

theorem onDevices_harts (D : δ → δ' → Prop) : AlikeHarts (OnDevices D) where
  cpus on := by rw [on.rest]
  reservations on := by rw [on.rest]
  feround on := by rw [on.rest]
  setCpu on h cpu := ⟨on.device, by rw [on.rest]; rfl⟩
  setReservations on reservations := ⟨on.device, by rw [on.rest]⟩
  setFeround on h round := ⟨on.device, by rw [on.rest]; rfl⟩
  abort on := ⟨on.device, by rw [on.rest]⟩

theorem ramTransfer_onDevices (same : mc'.ramStart = mc.ramStart) (on : OnDevices D m m')
    (addr : U64) (data : Option U64) (len : U64) (mode : RvAccess) :
    AlikeOut (OnDevices D) (ramTransfer mc m addr data len mode)
      (ramTransfer mc' m' addr data len mode) := by
  have ram : m'.ram = m.ram := by rw [on.rest]
  cases data with
  | none => exact ⟨rfl, rfl, on⟩
  | some d =>
      simp only [ramTransfer, same, ram]
      split
      · exact ⟨rfl, rfl, on.device, by rw [on.rest]⟩
      · exact ⟨rfl, rfl, on⟩

theorem RegionSim.dispatch {r : EmuMmioRegion δ} {r' : EmuMmioRegion δ'} (sim : RegionSim D r r')
    (on : OnDevices D m m') (addr : U64) (data : Option U64) (size : U8) (mode : RvAccess) :
    AlikeOut (OnDevices D) (mmioDispatch m r addr data size mode)
      (mmioDispatch m' r' addr data size mode) := by
  cases data with
  | none => exact ⟨rfl, rfl, on⟩
  | some d =>
      have written := sim.write on.bus (addr - r.base) size (lowBytes d size.toNat)
      have answered := sim.read on.bus (addr - r.base) size
      simp only [mmioDispatch, sim.base, written.1, answered.1]
      split
      · exact ⟨rfl, rfl, on.setBus written.2⟩
      · exact ⟨rfl, rfl, on.setBus answered.2⟩

/-- Devices that simulate each other leave the harts in lockstep. -/
theorem ConfigSim.lockstep (sim : ConfigSim D mc mc') :
    Lockstep mc mc' (OnDevices D) fun _ _ => True where
  toAlikeHarts := onDevices_harts D
  hooks := sim.hooks
  hooks' := sim.hooks'
  host := sim.host
  steps := fun _ _ => trivial
  access := by
    intro m m' h on _ vaddr data sizeExp mode
    have bus : BusLockstep mc mc' (OnDevices D) Everywhere :=
      { ramStart := sim.ramStart
        ramEnd := sim.ramEnd
        regions := sim.regions.imp fun r r' region => ⟨region.base, region.size, region.dispatch⟩
        ram := fun on addr data len mode _ => ramTransfer_onDevices sim.ramStart on addr data len mode }
    exact bus.virt (onDevices_harts D) on vaddr data sizeExp mode

end Sim

/-! ### Ghost state -/

variable {γ : Type}

def DeviceBus.plain (bus : DeviceBus (δ × γ)) : DeviceBus δ :=
  ⟨bus.device.1, bus.irqPending, bus.clintTimerArmed⟩

def DeviceBus.withGhost (bus : DeviceBus δ) (ghost : γ) : DeviceBus (δ × γ) :=
  ⟨(bus.device, ghost), bus.irqPending, bus.clintTimerArmed⟩

/-- The same region, which takes note of the writes it accepts. -/
def EmuMmioRegion.ghost (r : EmuMmioRegion δ) (note : γ → U64 → U8 → U64 → γ) :
    EmuMmioRegion (δ × γ) where
  base := r.base
  size := r.size
  read bus offset size :=
    let out := r.read bus.plain offset size
    (out.1, out.2.withGhost bus.device.2)
  write bus offset size data :=
    let out := r.write bus.plain offset size data
    (out.1, out.2.withGhost (if out.1 then note bus.device.2 offset size data else bus.device.2))

/-- The device is the first part of the pair. -/
def UnderGhost (device : δ) (pair : δ × γ) : Prop := pair.1 = device

theorem underGhost_pair (device : δ) (ghost : γ) : UnderGhost device (device, ghost) := rfl

theorem AlikeBus.plain {bus : DeviceBus δ} {bus' : DeviceBus (δ × γ)}
    (alike : AlikeBus UnderGhost bus bus') : bus'.plain = bus := by
  have device : bus'.device.1 = bus.device := alike.device
  rw [DeviceBus.plain, device, alike.irqPending, alike.clintTimerArmed]

theorem underGhost_withGhost (bus : DeviceBus δ) (ghost : γ) :
    AlikeBus UnderGhost bus (bus.withGhost ghost) := ⟨rfl, rfl, rfl⟩

theorem ghost_regionSim (r : EmuMmioRegion δ) (note : γ → U64 → U8 → U64 → γ) :
    RegionSim UnderGhost r (r.ghost note) where
  base := rfl
  size := rfl
  read alike offset size := by
    simp only [EmuMmioRegion.ghost, alike.plain, true_and]
    exact underGhost_withGhost _ _
  write alike offset size data := by
    simp only [EmuMmioRegion.ghost, alike.plain, true_and]
    exact underGhost_withGhost _ _

/-- The set-up with other regions, on other devices, without hooks. -/
def EmuConfig.onDevices (mc : EmuConfig δ) (mmio : List (EmuMmioRegion δ')) : EmuConfig δ' where
  ramStart := mc.ramStart
  ramEnd := mc.ramEnd
  cpuCount := mc.cpuCount
  mmio := mmio
  trapHook := fun _ => none
  rvFloatExactMath := mc.rvFloatExactMath
  fpu := mc.fpu
  softfloat := mc.softfloat

theorem onDevices_sim {D : δ → δ' → Prop} {mc : EmuConfig δ} (hooks : mc.NoHooks)
    {mmio : List (EmuMmioRegion δ')} (regions : List.Forall₂ (RegionSim D) mc.mmio mmio) :
    ConfigSim D mc (mc.onDevices mmio) :=
  ⟨hooks, fun _ => rfl, ⟨rfl, rfl, rfl, rfl⟩, rfl, rfl, regions⟩

/-! ### Runs -/

/-- A hart executes, the devices on either side act on their own, or RAM is loaded. -/
inductive SimEvent (D : δ → δ' → Prop)
  | step (h : Nat)
  | devices (act : DeviceBus δ → DeviceBus δ) (act' : DeviceBus δ' → DeviceBus δ')
      (keeps : ∀ {bus bus'}, AlikeBus D bus bus' → AlikeBus D (act bus) (act' bus'))
  | load (ram : U64 → U8)

def simStep {D : δ → δ' → Prop} (mc : EmuConfig δ) (m : EmuMachine δ) : SimEvent D → EmuMachine δ
  | .step h => rvStepInsn mc m h
  | .devices act _ _ => m.setBus (act m.bus)
  | .load ram => { m with ram := ram }

def simStep' {D : δ → δ' → Prop} (mc : EmuConfig δ') (m : EmuMachine δ') :
    SimEvent D → EmuMachine δ'
  | .step h => rvStepInsn mc m h
  | .devices _ act' _ => m.setBus (act' m.bus)
  | .load ram => { m with ram := ram }

theorem OnDevices.step {D : δ → δ' → Prop} {mc : EmuConfig δ} {mc' : EmuConfig δ'}
    {m : EmuMachine δ} {m' : EmuMachine δ'} (sim : ConfigSim D mc mc') (on : OnDevices D m m')
    (e : SimEvent D) : OnDevices D (simStep mc m e) (simStep' mc' m' e) := by
  cases e with
  | step h => exact sim.lockstep.stepInsn on trivial
  | devices act act' keeps => exact on.setBus (keeps on.bus)
  | load ram =>
      refine ⟨on.device, ?_⟩
      rw [simStep', on.rest]
      rfl

/-- What harts compute, store and take as interrupts is the same on devices that simulate each
other, in any order of their steps and of the devices' own. -/
theorem device_sim {D : δ → δ' → Prop} (mc : EmuConfig δ) (mc' : EmuConfig δ')
    (sim : ConfigSim D mc mc') {m : EmuMachine δ} {m' : EmuMachine δ'} (on : OnDevices D m m')
    (events : List (SimEvent D)) :
    OnDevices D (run (simStep mc) m events) (run (simStep' mc') m' events) :=
  related_run (C := fun _ _ => True) (fun _ _ e on _ => on.step sim e) on
    (stepsMeet_of_forall m fun _ _ => trivial)

/-- RAM at 0 and a CLINT at 0x2000000. -/
def clintHost : EmuConfig RvClint where
  ramStart := 0
  ramEnd := 0x1000
  cpuCount := 2
  mmio := [rvClintMmioRegion 0x2000000 0]
  trapHook := fun _ => none
  rvFloatExactMath := false
  fpu := default
  softfloat := default

/-- The same CLINT, which counts the writes it accepts. -/
def countedHost : EmuConfig (RvClint × Nat) :=
  clintHost.onDevices [(rvClintMmioRegion 0x2000000 0).ghost fun count _ _ _ => count + 1]

theorem countedHost_sim : ConfigSim UnderGhost clintHost countedHost :=
  onDevices_sim (fun _ => rfl) (.cons (ghost_regionSim _ _) .nil)

/-- Hart 0 raises MSIP of hart 1, which reads it back, while the timers are checked. -/
def msipEvents : List (SimEvent (UnderGhost (δ := RvClint) (γ := Nat))) :=
  [.load (programRam [0x020000b7, 0x00100113, 0x0020a223, 0x0040a183]),
    .step 0, .step 0, .step 0, .step 1, .step 1, .step 1, .step 1]

theorem device_sim_counted :
    OnDevices UnderGhost
      (run (simStep clintHost) (emuMachineInit (rvClintInit 0 2)) msipEvents)
      (run (simStep' countedHost) (emuMachineInit (rvClintInit 0 2, 0)) msipEvents) :=
  device_sim clintHost countedHost countedHost_sim ⟨underGhost_pair _ _, rfl⟩ msipEvents

end Riscmulator
