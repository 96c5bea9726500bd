import Riscmulator.BusSteps
import Riscmulator.Device.IrqLines
import Riscmulator.HostMemory
import Riscmulator.MmioMap
import Riscmulator.PcAlign

/-! A board: harts that execute instructions, with a CLINT and a PLIC in their address space.
Seen from the interrupt lines it is a run of the operations that own them. -/

namespace Riscmulator

open Transition

/-! ### The devices -/

/-- `rv_plic_mmio_region`. -/
def rvPlicMmioRegion (cpuCount : Nat) (base : U64) : EmuMmioRegion RvPlic where
  base := base
  size := plicRegionSize
  read := plicRead cpuCount
  write := plicWrite cpuCount

/-- The interrupt devices and the clock of the host. -/
structure BoardDevices where
  irq : IrqDevices
  now : U64

def DeviceBus.irq (bus : DeviceBus BoardDevices) : DeviceBus IrqDevices :=
  ⟨bus.device.irq, bus.irqPending, bus.clintTimerArmed⟩

def DeviceBus.plicPart (bus : DeviceBus BoardDevices) : DeviceBus RvPlic :=
  ⟨bus.device.irq.plic, bus.irqPending, bus.clintTimerArmed⟩

def DeviceBus.putPlic (bus : DeviceBus BoardDevices) (plic : DeviceBus RvPlic) :
    DeviceBus BoardDevices :=
  ⟨{ bus.device with irq := { bus.device.irq with plic := plic.device } }, plic.irqPending,
    plic.clintTimerArmed⟩

def DeviceBus.clintPart (bus : DeviceBus BoardDevices) : DeviceBus RvClint :=
  ⟨bus.device.irq.clint, bus.irqPending, bus.clintTimerArmed⟩

def DeviceBus.putClint (bus : DeviceBus BoardDevices) (clint : DeviceBus RvClint) :
    DeviceBus BoardDevices :=
  ⟨{ bus.device with irq := { bus.device.irq with clint := clint.device } }, clint.irqPending,
    clint.clintTimerArmed⟩

/-- The region of the PLIC, as one of two devices. -/
def boardPlic (cpuCount : Nat) (base : U64) : EmuMmioRegion BoardDevices where
  base := base
  size := (rvPlicMmioRegion cpuCount base).size
  read bus offset size :=
    let out := (rvPlicMmioRegion cpuCount base).read bus.plicPart offset size
    (out.1, bus.putPlic out.2)
  write bus offset size value :=
    let out := (rvPlicMmioRegion cpuCount base).write bus.plicPart offset size value
    (out.1, bus.putPlic out.2)

/-- The region of the CLINT, which reads the clock. -/
def boardClint (base : U64) : EmuMmioRegion BoardDevices where
  base := base
  size := (rvClintMmioRegion base 0).size
  read bus offset size :=
    let out := (rvClintMmioRegion base bus.device.now).read bus.clintPart offset size
    (out.1, bus.putClint out.2)
  write bus offset size value :=
    let out := (rvClintMmioRegion base bus.device.now).write bus.clintPart offset size value
    (out.1, bus.putClint out.2)

/-- A machine without hooks whose regions are all of a PLIC or a CLINT. -/
structure IsBoard (mc : EmuConfig BoardDevices) : Prop where
  hooks : mc.NoHooks
  regions : ∀ r ∈ mc.mmio, ∃ base, r = boardPlic mc.cpuCount base ∨ r = boardClint base

/-- What happens on a board: a thread executes or checks its timer, the clock moves, a device
outside raises a source, or RAM is loaded. -/
inductive BoardEvent
  | step (h : Nat)
  | timer (h : Nat)
  | clock (now : U64)
  | raise (source : U32)
  | load (ram : U64 → U8)

/-- `cpu_thread` alternates `step` and `timer` for its hart. -/
def boardStep (mc : EmuConfig BoardDevices) (m : EmuMachine BoardDevices) :
    BoardEvent → EmuMachine BoardDevices
  | .step h => rvStepInsn mc m h
  | .timer h => m.setBus (m.bus.putClint (cpuThreadCheckTimer m.bus.clintPart h m.device.now))
  | .clock now => { m with device := { m.device with now := now } }
  | .raise source => m.setBus (m.bus.putPlic (rvPlicSetPending mc.cpuCount m.bus.plicPart source))
  | .load ram => { m with ram := ram }

/-- The board in the host's memory: where a TLB store past the last slot goes, and, left
open, what asserting source 64 does past the arrays of the PLIC. -/
def hostBoardStep (past : DeviceBus RvPlic → DeviceBus RvPlic) (mc : EmuConfig BoardDevices)
    (m : EmuMachine BoardDevices) : BoardEvent → EmuMachine BoardDevices
  | .step h => hostStepInsn mc m h
  | .raise source =>
      m.setBus (m.bus.putPlic (hostPlicStep past mc.cpuCount m.bus.plicPart (.setPending source)))
  | e => boardStep mc m e

/-- The event stores nothing past the arrays: neither in a TLB nor in the PLIC. -/
def InsideArrays (mc : EmuConfig BoardDevices) (m : EmuMachine BoardDevices) : BoardEvent → Prop
  | .step h => StoresInArray mc m (.step h)
  | .raise source => source ≠ 64
  | _ => True

/-- The board after reset. -/
def boardInit (mc : EmuConfig BoardDevices) (now : U64) : EmuMachine BoardDevices :=
  emuMachineInit ⟨⟨rvPlicInit mc.cpuCount, rvClintInit now mc.cpuCount⟩, now⟩

/-! ### The host's memory -/

section Host

variable {past : DeviceBus RvPlic → DeviceBus RvPlic} {mc : EmuConfig BoardDevices}
  {m : EmuMachine BoardDevices}

theorem hostBoardStep_eq {e : BoardEvent} (inside : InsideArrays mc m e) :
    hostBoardStep past mc m e = boardStep mc m e := by
  cases e with
  | step h => exact hostStepInsn_eq inside
  | raise source => exact congrArg (fun bus => m.setBus (m.bus.putPlic bus)) (if_neg inside)
  | timer h => rfl
  | clock now => rfl
  | load ram => rfl

theorem hostBoardRun_eq {events : List BoardEvent}
    (inside : StepsMeet (hostBoardStep past mc) (InsideArrays mc) m events) :
    run (hostBoardStep past mc) m events = run (boardStep mc) m events :=
  run_congr (fun _ _ => hostBoardStep_eq) inside

theorem hostBoardStepsMeet_iff {events : List BoardEvent}
    {D : EmuMachine BoardDevices → BoardEvent → Prop}
    (inside : StepsMeet (hostBoardStep past mc) (InsideArrays mc) m events) :
    StepsMeet (hostBoardStep past mc) D m events ↔ StepsMeet (boardStep mc) D m events :=
  stepsMeet_congr (fun _ _ => hostBoardStep_eq) inside

/-- The hart that acts, if one does, has translation off, and source 64 is not asserted. -/
def BoardEvent.Plain (m : EmuMachine BoardDevices) : BoardEvent → Prop
  | .step h => rvSatpMode (m.cpus h).csr.satp = 0
  | .raise source => source ≠ 64
  | _ => True

instance (m : EmuMachine BoardDevices) (e : BoardEvent) : Decidable (e.Plain m) := by
  cases e <;> unfold BoardEvent.Plain <;> infer_instance

theorem setBus_inArray {bus : DeviceBus BoardDevices} : (m.setBus bus).InArray ↔ m.InArray :=
  inArray_of_entries fun _ => rfl

theorem hostBoardStep_plain (hooks : mc.NoHooks) {e : BoardEvent} (plain : e.Plain m)
    (before : m.InArray) : InsideArrays mc m e ∧ (hostBoardStep past mc m e).InArray := by
  cases e with
  | step h =>
      have stores : StoresInArray mc m (.step h) := storesInArray_bare plain before
      exact ⟨stores, hostStep_inArray hooks stores⟩
  | timer h => exact ⟨trivial, setBus_inArray.mpr before⟩
  | clock now => exact ⟨trivial, before⟩
  | raise source => exact ⟨plain, setBus_inArray.mpr before⟩
  | load ram => exact ⟨trivial, before⟩

theorem insideArrays_run (hooks : mc.NoHooks) {events : List BoardEvent} (before : m.InArray)
    (plain : StepsMeet (hostBoardStep past mc) (fun m e => e.Plain m) m events) :
    StepsMeet (hostBoardStep past mc) (InsideArrays mc) m events := by
  induction events generalizing m with
  | nil => trivial
  | cons e events ih =>
      have both : InsideArrays mc m e ∧ (hostBoardStep past mc m e).InArray :=
        hostBoardStep_plain hooks plain.1 before
      exact ⟨both.1, ih both.2 plain.2⟩

end Host

/-! ### Accesses of the regions -/

theorem clintRead_bus (now : U64) (bus : DeviceBus RvClint) (offset : U64) (size : U8) :
    (clintRead now bus offset size).2 = bus := by
  simp only [clintRead]
  split <;> rfl

section Lines

variable {mc : EmuConfig BoardDevices} {C : EmuMachine IrqDevices → IrqEvent → Prop}
  {s : EmuMachine IrqDevices} {bus : DeviceBus BoardDevices}

/-- An operation of the PLIC is the same on the board and among the owners of the lines. -/
theorem irqStep_plic (same : s.bus = bus.irq) (cpuCount : Nat) (e : PlicEvent) :
    (irqStep cpuCount s (.plic e)).bus = (bus.putPlic (plicStep cpuCount bus.plicPart e)).irq := by
  rw [DeviceBus.irq, DeviceBus.mk.injEq] at same
  obtain ⟨device, lines, armed⟩ := same
  have part : s.plicBus = bus.plicPart := by
    rw [EmuMachine.plicBus, lines, armed]
    exact congrArg (fun d : IrqDevices => DeviceBus.mk d.plic _ _) device
  have clint : s.device.clint = bus.device.irq.clint := congrArg IrqDevices.clint device
  simp only [irqStep, EmuMachine.setPlicBus, EmuMachine.bus_setBus, part, DeviceBus.irq,
    DeviceBus.putPlic, clint]

theorem clintBus_of_irq (same : s.bus = bus.irq) : s.clintBus = bus.clintPart := by
  rw [DeviceBus.irq, DeviceBus.mk.injEq] at same
  obtain ⟨device, lines, armed⟩ := same
  rw [EmuMachine.clintBus, lines, armed]
  exact congrArg (fun d : IrqDevices => DeviceBus.mk d.clint _ _) device

theorem setClintBus_irq (same : s.bus = bus.irq) (clint : DeviceBus RvClint) :
    (s.setClintBus clint).bus = (bus.putClint clint).irq := by
  rw [DeviceBus.irq, DeviceBus.mk.injEq] at same
  have plic : s.device.plic = bus.device.irq.plic := congrArg IrqDevices.plic same.1
  simp only [EmuMachine.setClintBus, EmuMachine.bus_setBus, DeviceBus.irq, DeviceBus.putClint, plic]

/-- Callbacks of the regions are operations of the two devices. -/
theorem busReach_irq (board : IsBoard mc) (plic : ∀ s e, C s (.plic e))
    (clint : ∀ s now offset size value, C s (.clintWrite now offset size value))
    {first last : DeviceBus BoardDevices} (reach : BusReach mc first last) (same : s.bus = first.irq) :
    ∃ s', Reach (irqStep mc.cpuCount) C s s' ∧ s'.bus = last.irq := by
  induction reach with
  | refl => exact ⟨s, .refl s, same⟩
  | read before region offset size ih =>
      next bus r =>
      obtain ⟨middle, reached, now⟩ := ih
      obtain ⟨base, rfl | rfl⟩ := board.regions _ region
      · exact ⟨_, reached.trans (.single (.plic (.read offset size)) (plic _ _)),
          irqStep_plic now _ _⟩
      · refine ⟨middle, reached, ?_⟩
        rw [now]
        simp only [boardClint, rvClintMmioRegion, clintRead_bus]
        rfl
  | write before region offset size data ih =>
      next bus r =>
      obtain ⟨middle, reached, now⟩ := ih
      obtain ⟨base, rfl | rfl⟩ := board.regions _ region
      · exact ⟨_, reached.trans (.single (.plic (.write offset size data)) (plic _ _)),
          irqStep_plic now _ _⟩
      · refine ⟨_, reached.trans (.single (.clintWrite bus.device.now offset size data)
          (clint _ _ _ _ _)), ?_⟩
        simp only [irqStep, clintBus_of_irq now]
        exact setClintBus_irq now _

end Lines

/-! ### Steps -/

/-- Executing the word on this core writes a register that clears SEIP. -/
def ClearsSeipInsn (cpu : RvCpu) (insn : U32) : Prop :=
  IsCsrInsn insn ∧ (doCsrSource cpu insn).2 = true ∧
    ∃ rdata, doCsrRead cpu insn = some rdata ∧
      ClearsSeip cpu (rvInsnUimm12 insn).toNat (doCsrWdata insn rdata (doCsrSource cpu insn).1)

/-- The step executes a word that clears SEIP of its hart, whose S context has an interrupt. -/
def LosesSeip (mc : EmuConfig BoardDevices) (m : EmuMachine BoardDevices) : BoardEvent → Prop
  | .step h => ∃ fetched insn, rvFetchInsn mc m h = .word fetched insn ∧ h < mc.cpuCount ∧
      fetched.device.irq.plic.Interrupts (2 * h + 1) ∧ ClearsSeipInsn (fetched.cpus h) insn
  | _ => False

section Steps

variable {mc : EmuConfig BoardDevices} {m : EmuMachine BoardDevices} {s : EmuMachine IrqDevices}
  {h : Nat}

theorem setCpu_irq (same : s.bus = m.bus.irq) (h : Nat) (cpu : RvCpu) :
    (s.setCpu h cpu).bus = (m.setCpu h cpu).bus.irq := by
  rw [DeviceBus.irq, DeviceBus.mk.injEq] at same
  obtain ⟨device, lines, armed⟩ := same
  rw [EmuMachine.bus, DeviceBus.irq, DeviceBus.mk.injEq]
  refine ⟨device, ?_, ?_⟩
  · funext i
    by_cases mine : i = h
    · rw [mine, EmuMachine.setCpu_same]
      exact congrArg RvCpu.irqPending (EmuMachine.setCpu_same m h cpu).symm
    · rw [EmuMachine.setCpu_other _ _ mine]
      exact (congrFun lines i).trans
        (congrArg RvCpu.irqPending (EmuMachine.setCpu_other m cpu mine).symm)
  · funext i
    by_cases mine : i = h
    · rw [mine, EmuMachine.setCpu_same]
      exact congrArg RvCpu.clintTimerArmed (EmuMachine.setCpu_same m h cpu).symm
    · rw [EmuMachine.setCpu_other _ _ mine]
      exact (congrFun armed i).trans
        (congrArg RvCpu.clintTimerArmed (EmuMachine.setCpu_other m cpu mine).symm)

/-- A CSR instruction is at most one register write, which the lines see. -/
theorem doCsr_irq {insn : U32} {rdata : U64} {cpu : RvCpu} (form : IsCsrInsn insn)
    (read : doCsrRead (m.cpus h) insn = some rdata)
    (written : doCsrWrite (m.cpus h) insn rdata = some cpu) (same : s.bus = m.bus.irq) :
    ∃ s', Reach (irqStep mc.cpuCount) (fun s e => ¬(h < mc.cpuCount ∧
        m.device.irq.plic.Interrupts (2 * h + 1) ∧ ClearsSeipInsn (m.cpus h) insn) →
        KeepsSeip mc.cpuCount s e) s s' ∧
      s'.bus = (m.setCpu h cpu).bus.irq := by
  simp only [doCsrWrite] at written
  split at written
  · next source =>
      have synced : irqStep mc.cpuCount s (.core h (m.cpus h)) = s.setCpu h (m.cpus h) := by
        have lines : (s.cpus h).irqPending = (m.cpus h).irqPending :=
          congrFun (congrArg DeviceBus.irqPending same) h
        simp only [irqStep, lines]
      have now : (s.setCpu h (m.cpus h)).bus = m.bus.irq := by
        rw [setCpu_irq same, EmuMachine.setCpu_self]
      have stored : irqStep mc.cpuCount (s.setCpu h (m.cpus h)) (.csrWrite h
          (rvInsnUimm12 insn).toNat (doCsrWdata insn rdata (doCsrSource (m.cpus h) insn).1)) =
          (s.setCpu h (m.cpus h)).setCpu h cpu := by
        simp only [irqStep, EmuMachine.setCpu_same, written]
      refine ⟨(s.setCpu h (m.cpus h)).setCpu h cpu,
        ⟨[.core h (m.cpus h), .csrWrite h (rvInsnUimm12 insn).toNat
          (doCsrWdata insn rdata (doCsrSource (m.cpus h) insn).1)],
          ⟨fun _ => trivial, ?_, trivial⟩, ?_⟩,
        setCpu_irq now h cpu⟩
      · rw [synced]
        intro kept inside serves clears
        rw [EmuMachine.setCpu_same] at clears
        have device : s.device = m.device.irq := congrArg DeviceBus.device same
        have same' : (s.setCpu h (m.cpus h)).device = m.device.irq := device
        rw [same'] at serves
        exact kept ⟨inside, serves, form, source, rdata, read, clears⟩
      · rw [run_cons, run_cons, run_nil, synced, stored]
  · cases written
    exact ⟨s, .refl s, by rw [same, EmuMachine.setCpu_self]⟩

/-- A step of the board is a run of the operations that own the lines. -/
theorem boardStep_irq (board : IsBoard mc) (e : BoardEvent) (same : s.bus = m.bus.irq) :
    ∃ s', Reach (irqStep mc.cpuCount)
        (fun s e' => ¬LosesSeip mc m e → KeepsSeip mc.cpuCount s e') s s' ∧
      s'.bus = (boardStep mc m e).bus.irq := by
  cases e with
  | step h =>
      have callbacks := fun (last : DeviceBus BoardDevices) (reach : BusReach mc m.bus last) =>
        busReach_irq (C := fun s e' => ¬LosesSeip mc m (.step h) → KeepsSeip mc.cpuCount s e')
          board (fun _ _ _ => trivial) (fun _ _ _ _ _ _ => trivial) reach same
      have stepped := rvStepInsn_stepBus board.hooks m h
      simp only [boardStep]
      revert stepped
      generalize (rvStepInsn mc m h).bus = last
      intro stepped
      cases stepped with
      | callbacks reach => exact callbacks _ reach
      | @csr fetched insn rdata cpu word reach form read written =>
          obtain ⟨middle, first, now⟩ := callbacks _ reach
          obtain ⟨s', ⟨events, meets, ended⟩, later⟩ := doCsr_irq form read written now
          refine ⟨s', first.trans ⟨events, stepsMeet_mono ?_ _ _ meets, ended⟩, later⟩
          intro s e keeps kept
          exact keeps fun loses => kept ⟨fetched, insn, word, loses⟩
  | timer h =>
      refine ⟨irqStep mc.cpuCount s (.checkTimer h m.device.now), .single _ (fun _ => trivial), ?_⟩
      simp only [irqStep, clintBus_of_irq same]
      exact setClintBus_irq same _
  | clock now => exact ⟨s, .refl s, same⟩
  | raise source =>
      exact ⟨irqStep mc.cpuCount s (.plic (.setPending source)), .single _ (fun _ => trivial),
        irqStep_plic same _ _⟩
  | load ram => exact ⟨s, .refl s, same⟩

end Steps

/-! ### Runs -/

/-- The board without its clock. -/
def EmuMachine.irqView (m : EmuMachine BoardDevices) : EmuMachine IrqDevices :=
  ⟨m.ram, m.cpus, m.reservations, m.device.irq, m.feround, m.aborted⟩

/-- The first external line of every hart follows its M context. -/
def MeipFollows (cpuCount : Nat) (m : EmuMachine IrqDevices) : Prop :=
  ∀ h < cpuCount,
    ((m.cpus h).irqPending.getLsbD rvMipMeipBit = true ↔ m.device.plic.Interrupts (2 * h))

section Runs

variable {cpuCount : Nat} {s s' : EmuMachine IrqDevices}

theorem MeipFollows.frame (follows : MeipFollows cpuCount s) (plic : s'.device.plic = s.device.plic)
    (meip : ∀ h, (s'.cpus h).irqPending.getLsbD rvMipMeipBit =
      (s.cpus h).irqPending.getLsbD rvMipMeipBit) : MeipFollows cpuCount s' := by
  intro h inside
  rw [meip, plic]
  exact follows h inside

/-- No write of a register moves the first external line. -/
theorem meipFollows_step (contexts : s.device.plic.numContexts = cpuCount * 2)
    (follows : MeipFollows cpuCount s) (e : IrqEvent) : MeipFollows cpuCount (irqStep cpuCount s e) := by
  cases e with
  | plic e =>
      rcases plicStep_cases cpuCount s.plicBus e with ⟨kept, unchanged | updated⟩
      · simp only [irqStep, unchanged]
        exact follows
      · intro h inside
        have irq : ((irqStep cpuCount s (.plic e)).cpus h).irqPending =
            (plicStep cpuCount s.plicBus e).irqPending h := rfl
        rw [irq, updated, plicUpdateLines_bit (kept.trans contexts) _ inside, if_pos (by decide)]
        exact hasIrq_iff _ _
  | clintWrite now offset size value =>
      exact follows.frame rfl fun h =>
        clintWrite_bit now s.clintBus offset size value h (by decide) (by decide)
  | checkTimer hart now =>
      exact follows.frame rfl fun h => cpuThreadCheckTimer_bit s.clintBus hart now h (by decide)
  | csrWrite hart index wdata =>
      simp only [irqStep]
      cases written : rvCsrWrite (s.cpus hart) index wdata with
      | none => exact follows
      | some cpu =>
          refine follows.frame rfl fun h => ?_
          by_cases mine : h = hart
          · subst mine
            simp only [EmuMachine.setCpu_same]
            exact (rvCsrWrite_externalLines written).1
          · simp only [EmuMachine.setCpu_other _ _ mine]
  | core hart cpu =>
      refine follows.frame rfl fun h => ?_
      by_cases mine : h = hart
      · subst mine
        simp [irqStep]
      · simp [irqStep, EmuMachine.setCpu_other _ _ mine]

theorem irqPending_of_bus (same : s'.bus = s.bus) (h : Nat) :
    (s'.cpus h).irqPending = (s.cpus h).irqPending :=
  congrFun (congrArg DeviceBus.irqPending same) h

theorem plic_of_bus (same : s'.bus = s.bus) : s'.device.plic = s.device.plic :=
  congrArg (fun bus : DeviceBus IrqDevices => bus.device.plic) same

variable {mc : EmuConfig BoardDevices} {m : EmuMachine BoardDevices}

/-- What one step keeps of the board's lines. -/
theorem boardStep_lines (board : IsBoard mc) (e : BoardEvent)
    (contexts : m.device.irq.plic.numContexts = mc.cpuCount * 2) :
    (boardStep mc m e).device.irq.plic.numContexts = mc.cpuCount * 2 ∧
      (MeipFollows mc.cpuCount m.irqView → MeipFollows mc.cpuCount (boardStep mc m e).irqView) ∧
      (¬LosesSeip mc m e → ExternalLines mc.cpuCount m.irqView →
        ExternalLines mc.cpuCount (boardStep mc m e).irqView) := by
  obtain ⟨s', reach, same⟩ := @boardStep_irq mc m m.irqView board e rfl
  have same : (boardStep mc m e).irqView.bus = s'.bus := same.symm
  have after : s'.device.plic.numContexts = mc.cpuCount * 2 := by
    refine reach.invariant (I := fun s => s.device.plic.numContexts = mc.cpuCount * 2) ?_ contexts
    exact fun s e before _ => (irqStep_numContexts mc.cpuCount s e).trans before
  refine ⟨?_, ?_, ?_⟩
  · exact (congrArg RvPlic.numContexts (plic_of_bus same)).trans after
  · intro follows
    have later := reach.invariant
      (I := fun s => s.device.plic.numContexts = mc.cpuCount * 2 ∧ MeipFollows mc.cpuCount s)
      (fun s e before _ => ⟨(irqStep_numContexts mc.cpuCount s e).trans before.1,
        meipFollows_step before.1 before.2 e⟩) ⟨contexts, follows⟩
    exact later.2.frame (plic_of_bus same) fun h => by rw [irqPending_of_bus same]
  · intro kept lines
    have later := reach.invariant
      (I := fun s => s.device.plic.numContexts = mc.cpuCount * 2 ∧ ExternalLines mc.cpuCount s)
      (fun s e before keeps => ⟨(irqStep_numContexts mc.cpuCount s e).trans before.1,
        (externalLines_step before.1 before.2 e).mpr (keeps kept)⟩) ⟨contexts, lines⟩
    exact externalLines_frame later.2 (plic_of_bus same) (fun h => by rw [irqPending_of_bus same])
      fun h => by rw [irqPending_of_bus same]

theorem boardInit_lines (mc : EmuConfig BoardDevices) (now : U64) :
    ExternalLines mc.cpuCount (boardInit mc now).irqView := externalLines_start mc.cpuCount now

theorem board_contexts (board : IsBoard mc) (now : U64) (events : List BoardEvent) :
    (run (boardStep mc) (boardInit mc now) events).device.irq.plic.numContexts = mc.cpuCount * 2 :=
  invariant_run_always (I := fun m : EmuMachine BoardDevices =>
      m.device.irq.plic.numContexts = mc.cpuCount * 2)
    (fun _ e contexts => (boardStep_lines board e contexts).1) events rfl

theorem board_meip (board : IsBoard mc) (now : U64) (events : List BoardEvent) :
    MeipFollows mc.cpuCount (run (boardStep mc) (boardInit mc now) events).irqView := by
  have follows := invariant_run_always
    (I := fun m : EmuMachine BoardDevices =>
      m.device.irq.plic.numContexts = mc.cpuCount * 2 ∧ MeipFollows mc.cpuCount m.irqView)
    (fun m e before => ⟨(boardStep_lines board e before.1).1,
      (boardStep_lines board e before.1).2.1 before.2⟩) events
    (s := boardInit mc now) ⟨rfl, (boardInit_lines mc now).meip⟩
  exact follows.2

end Runs

/-- After any run of a board that stores nothing past the arrays, MEIP of every hart is up
exactly when a source interrupts its M context; and SEIP is up whenever one interrupts its S
context, if no step of the run has cleared SEIP of a hart then. -/
theorem board_lines (past : DeviceBus RvPlic → DeviceBus RvPlic) (mc : EmuConfig BoardDevices)
    (board : IsBoard mc) (now : U64) (events : List BoardEvent) {m : EmuMachine BoardDevices}
    (reached : m = run (hostBoardStep past mc) (boardInit mc now) events)
    (inside : StepsMeet (hostBoardStep past mc) (InsideArrays mc) (boardInit mc now) events) :
    (∀ h < mc.cpuCount, ((m.cpus h).irqPending.getLsbD rvMipMeipBit = true ↔
      m.device.irq.plic.Interrupts (2 * h))) ∧
    (StepsMeet (hostBoardStep past mc) (fun m e => ¬LosesSeip mc m e) (boardInit mc now) events →
      ∀ h < mc.cpuCount, m.device.irq.plic.Interrupts (2 * h + 1) →
        (m.cpus h).irqPending.getLsbD rvMipSeipBit = true) := by
  rw [hostBoardRun_eq inside] at reached
  rw [hostBoardStepsMeet_iff inside]
  subst reached
  constructor
  · exact board_meip board now events
  · intro kept
    have lines := invariant_run
      (I := fun m : EmuMachine BoardDevices =>
        m.device.irq.plic.numContexts = mc.cpuCount * 2 ∧ ExternalLines mc.cpuCount m.irqView)
      (fun m e before kept => ⟨(boardStep_lines board e before.1).1,
        (boardStep_lines board e before.1).2.2 kept before.2⟩)
      (s := boardInit mc now) ⟨rfl, boardInit_lines mc now⟩ kept
    exact lines.2.seip

/-- One hart with RAM at 0, a CLINT and a PLIC. -/
def soloBoard : EmuConfig BoardDevices :=
  [boardClint 0x2000000, boardPlic 1 0xc000000].foldl emuMachineAddMmio
    { ramStart := 0
      ramEnd := 0x1000
      cpuCount := 1
      mmio := []
      trapHook := fun _ => none
      rvFloatExactMath := false
      fpu := default
      softfloat := default }

theorem soloBoard_isBoard : IsBoard soloBoard := by
  refine ⟨fun _ => rfl, ?_⟩
  intro r member
  rcases List.mem_pair.mp member with rfl | rfl
  · exact ⟨_, Or.inr rfl⟩
  · exact ⟨_, Or.inl rfl⟩

/-- Give source 1 a priority and enable it for M-mode, here and in `mie`. -/
def enableWords : List U32 :=
  [0x0c0000b7, 0x00200113, 0x0020a223, 0x0c0021b7, 0x0021a023, 0x80000213, 0x30421073]

/-- The program runs while source 1 is pending. -/
def enableEvents (rest : List U32) : List BoardEvent :=
  [.load (programRam (enableWords ++ rest)), .raise 1] ++ List.replicate 7 (.step 0)

theorem enableEvents_inside :
    StepsMeet (hostBoardStep (fun bus => bus) soloBoard) (InsideArrays soloBoard)
      (boardInit soloBoard 0) (enableEvents []) :=
  insideArrays_run (fun _ => rfl) (emuMachineInit_inArray _) (by decide +kernel)

theorem board_lines_enabled :
    (∀ h < soloBoard.cpuCount, (((run (hostBoardStep (fun bus => bus) soloBoard)
        (boardInit soloBoard 0) (enableEvents [])).cpus h).irqPending.getLsbD rvMipMeipBit = true ↔
      (run (hostBoardStep (fun bus => bus) soloBoard) (boardInit soloBoard 0)
        (enableEvents [])).device.irq.plic.Interrupts (2 * h))) ∧
    (StepsMeet (hostBoardStep (fun bus => bus) soloBoard) (fun m e => ¬LosesSeip soloBoard m e)
        (boardInit soloBoard 0) (enableEvents []) →
      ∀ h < soloBoard.cpuCount, (run (hostBoardStep (fun bus => bus) soloBoard)
          (boardInit soloBoard 0) (enableEvents [])).device.irq.plic.Interrupts (2 * h + 1) →
        ((run (hostBoardStep (fun bus => bus) soloBoard) (boardInit soloBoard 0)
          (enableEvents [])).cpus h).irqPending.getLsbD rvMipSeipBit = true) :=
  board_lines (fun bus => bus) soloBoard soloBoard_isBoard 0 (enableEvents []) rfl
    enableEvents_inside

end Riscmulator
