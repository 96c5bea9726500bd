import Riscmulator.Device.Board
import Riscmulator.Device.Timer
import Riscmulator.DeviceSim

/-! What the CLINT of a board holds is what the harts last wrote to it: the software
interrupts they send each other, and the timers they set. -/

namespace Riscmulator

open Transition

/-! ### The writes a CLINT accepts -/

structure ClintWrite where
  offset : U64
  size : U8
  data : U64
  deriving DecidableEq, Repr

/-- The data of the last write of this size at this offset. -/
def lastData (log : List ClintWrite) (offset : Nat) (size : U8) : U64 :=
  log.foldl (fun last w => if w.offset.toNat = offset ∧ w.size = size then w.data else last) 0

theorem lastData_concat (log : List ClintWrite) (w : ClintWrite) (offset : Nat) (size : U8) :
    lastData (log ++ [w]) offset size =
      if w.offset.toNat = offset ∧ w.size = size then w.data else lastData log offset size := by
  rw [lastData, List.foldl_append, List.foldl_cons, List.foldl_nil]
  rfl

/-! ### Boards that record them -/

/-- A region of a board. -/
inductive BoardRegion
  | plic (base : U64)
  | clint (base : U64)

def BoardRegion.region (cpuCount : Nat) : BoardRegion → EmuMmioRegion BoardDevices
  | .plic base => boardPlic cpuCount base
  | .clint base => boardClint base

/-- The devices of a board and the writes its CLINT has accepted. -/
abbrev RecordedDevices := BoardDevices × List ClintWrite

def BoardRegion.recorded (cpuCount : Nat) : BoardRegion → EmuMmioRegion RecordedDevices
  | .plic base => (boardPlic cpuCount base).ghost fun log _ _ _ => log
  | .clint base => (boardClint base).ghost fun log offset size data => log ++ [⟨offset, size, data⟩]

/-- `mc` as a board with these regions. -/
def boardOf (mc : EmuConfig BoardDevices) (regions : List BoardRegion) : EmuConfig BoardDevices :=
  mc.withMmio (regions.map (·.region mc.cpuCount))

def recordedOf (mc : EmuConfig BoardDevices) (regions : List BoardRegion) :
    EmuConfig RecordedDevices :=
  mc.onDevices (regions.map (·.recorded mc.cpuCount))

/-- What an event that no hart executes does to the devices. -/
def boardAct (cpuCount : Nat) (bus : DeviceBus BoardDevices) : BoardEvent → DeviceBus BoardDevices
  | .timer h => bus.putClint (cpuThreadCheckTimer bus.clintPart h bus.device.now)
  | .clock now => { bus with device := { bus.device with now := now } }
  | .raise source => bus.putPlic (rvPlicSetPending cpuCount bus.plicPart source)
  | .step _ | .load _ => bus

def recordedStep (mc : EmuConfig RecordedDevices) (m : EmuMachine RecordedDevices) :
    BoardEvent → EmuMachine RecordedDevices
  | .step h => rvStepInsn mc m h
  | .load ram => { m with ram := ram }
  | e => m.setBus ((boardAct mc.cpuCount m.bus.plain e).withGhost m.device.2)

/-- The recorded board after reset. -/
def recordedInit (mc : EmuConfig BoardDevices) (now : U64) : EmuMachine RecordedDevices :=
  emuMachineInit (⟨⟨rvPlicInit mc.cpuCount, rvClintInit now mc.cpuCount⟩, now⟩, [])

section Recorded

variable {mc : EmuConfig BoardDevices} {regions : List BoardRegion} {m : EmuMachine BoardDevices}
  {m' : EmuMachine RecordedDevices}

theorem recordedOf_sim (hooks : mc.NoHooks) (regions : List BoardRegion) :
    ConfigSim UnderGhost (boardOf mc regions) (recordedOf mc regions) := by
  refine ⟨hooks, fun _ => rfl, ⟨rfl, rfl, rfl, rfl⟩, rfl, rfl, ?_⟩
  refine List.forall₂_map_left_iff.mpr (List.forall₂_map_right_iff.mpr ?_)
  refine List.forall₂_same.mpr fun region _ => ?_
  cases region with
  | plic base =>
      rw [BoardRegion.region, BoardRegion.recorded]
      exact ghost_regionSim _ _
  | clint base =>
      rw [BoardRegion.region, BoardRegion.recorded]
      exact ghost_regionSim _ _

/-- The record changes nothing on the board. -/
theorem recordedStep_sim (hooks : mc.NoHooks) (on : OnDevices UnderGhost m m') (e : BoardEvent) :
    OnDevices UnderGhost (boardStep (boardOf mc regions) m e)
      (recordedStep (recordedOf mc regions) m' e) := by
  have acted : OnDevices UnderGhost (m.setBus (boardAct mc.cpuCount m.bus e))
      (m'.setBus ((boardAct mc.cpuCount m'.bus.plain e).withGhost m'.device.2)) := by
    rw [on.bus.plain]
    exact on.setBus (underGhost_withGhost _ _)
  cases e with
  | step h => exact (recordedOf_sim hooks regions).lockstep.stepInsn on trivial
  | timer h => exact acted
  | clock now => exact acted
  | raise source => exact acted
  | load ram =>
      refine ⟨on.device, ?_⟩
      rw [recordedStep, on.rest]
      rfl

end Recorded

/-! ### What the record says -/

/-- MSIP of every hart is bit 0 of the last word written to its register, and `mtimecmp` the
last double word. The register whose place `mtime` takes is never written. -/
structure ClintMatches (cpuCount : Nat) (bus : DeviceBus RecordedDevices) : Prop where
  harts : bus.device.1.irq.clint.cpuCount = cpuCount
  msip : ∀ h < cpuCount, (bus.irqPending h).getLsbD rvClintMsipBit =
    (lastData bus.device.2 (clintMsipStride * h) 4).getLsbD 0
  mtimecmp : ∀ h < cpuCount, clintMtimecmpBase + clintMtimecmpStride * h ≠ clintMtimeOffset →
    bus.device.1.irq.clint.mtimecmp h =
      lastData bus.device.2 (clintMtimecmpBase + clintMtimecmpStride * h) 8

section Matches

variable {cpuCount : Nat} {bus bus' : DeviceBus RecordedDevices}

/-- The CLINT and the software interrupts are as before. -/
theorem ClintMatches.frame (before : ClintMatches cpuCount bus)
    (clint : bus'.device.1.irq.clint = bus.device.1.irq.clint)
    (log : bus'.device.2 = bus.device.2)
    (msip : ∀ h, (bus'.irqPending h).getLsbD rvClintMsipBit =
      (bus.irqPending h).getLsbD rvClintMsipBit) : ClintMatches cpuCount bus' := by
  constructor
  · rw [clint]
    exact before.harts
  · intro h inside
    rw [msip, log]
    exact before.msip h inside
  · intro h inside apart
    rw [clint, log]
    exact before.mtimecmp h inside apart

theorem plicUpdateLines_msip (cpuCount : Nat) (plic : RvPlic) (irq : Nat → U64) (h : Nat) :
    (plicUpdateLines cpuCount plic irq h).getLsbD rvClintMsipBit =
      (irq h).getLsbD rvClintMsipBit := by
  rw [plicUpdateLines, plicUpdateRounds_bit, if_neg, if_neg]
  · rintro ⟨_, _, same⟩
    exact absurd same (by decide)
  · rintro ⟨_, _, same⟩
    exact absurd same (by decide)

theorem plicStep_msip (cpuCount : Nat) (bus : DeviceBus RvPlic) (e : PlicEvent) (h : Nat) :
    ((plicStep cpuCount bus e).irqPending h).getLsbD rvClintMsipBit =
      (bus.irqPending h).getLsbD rvClintMsipBit := by
  rcases (plicStep_cases cpuCount bus e).2 with unchanged | updated
  · rw [unchanged]
  · rw [updated]
    exact plicUpdateLines_msip _ _ _ _

/-- The register a write goes to stands at the offset of the write. -/
theorem clintDecode_place (clint : RvClint) (offset : U64) (size : U8) :
    match clintDecode clint offset size with
    | .mtime => offset.toNat = clintMtimeOffset ∧ size = 8
    | .mtimecmp hart => offset.toNat = clintMtimecmpBase + clintMtimecmpStride * hart ∧ size = 8 ∧
        offset.toNat ≠ clintMtimeOffset
    | .msip hart => offset.toNat = clintMsipStride * hart ∧ size = 4
    | .none => True := by
  generalize decoded : clintDecode clint offset size = reg
  unfold clintDecode at decoded
  simp only at decoded
  split_ifs at decoded with time compare present soft present' <;> subst decoded
  · exact time
  · have whole := Nat.mul_div_cancel' (Nat.dvd_of_mod_eq_zero present.2)
    exact ⟨by omega, compare.2, fun same => time ⟨same, compare.2⟩⟩
  · trivial
  · exact ⟨(Nat.mul_div_cancel' (Nat.dvd_of_mod_eq_zero present'.2)).symm, soft.2⟩
  · trivial
  · trivial

theorem clintWrite_refused {now offset data : U64} {size : U8} {bus : DeviceBus RvClint}
    (refused : (clintWrite now bus offset size data).1 = false) :
    (clintWrite now bus offset size data).2 = bus := by
  revert refused
  simp only [clintWrite]
  cases clintDecode bus.device offset size with
  | none => exact fun _ => rfl
  | mtime =>
      intro refused
      cases refused
  | mtimecmp hart =>
      intro refused
      cases refused
  | msip hart =>
      intro refused
      cases refused

/-- What the registers hold after a write that the CLINT accepts. -/
theorem clintWrite_recorded (before : ClintMatches cpuCount bus) (now offset : U64) (size : U8)
    (data : U64) (accepted : (clintWrite now bus.plain.clintPart offset size data).1 = true) :
    ClintMatches cpuCount
      ((bus.plain.putClint (clintWrite now bus.plain.clintPart offset size data).2).withGhost
        (bus.device.2 ++ [⟨offset, size, data⟩])) := by
  have place := clintDecode_place bus.plain.clintPart.device offset size
  revert accepted place
  simp only [clintWrite]
  cases clintDecode bus.plain.clintPart.device offset size with
  | mtime =>
      intro _ place
      obtain ⟨here, double⟩ := place
      refine ⟨before.harts, ?_, ?_⟩
      · intro h inside
        have word : ¬(size = 4) := by rw [double]; decide
        simp only [DeviceBus.withGhost, lastData_concat, word, and_false, if_false]
        exact before.msip h inside
      · intro h inside apart
        have elsewhere : ¬(offset.toNat = clintMtimecmpBase + clintMtimecmpStride * h) := by
          rw [here]
          exact fun same => apart same.symm
        simp only [DeviceBus.withGhost, lastData_concat, elsewhere, false_and, if_false]
        exact before.mtimecmp h inside apart
  | mtimecmp hart =>
      intro _ place
      obtain ⟨here, double, notTime⟩ := place
      refine ⟨before.harts, ?_, ?_⟩
      · intro h inside
        have word : ¬(size = 4) := by rw [double]; decide
        simp only [DeviceBus.withGhost, lastData_concat, word, and_false, if_false]
        refine Eq.trans ?_ (before.msip h inside)
        simp only [DeviceBus.putClint, rvClintSetMtimecmp]
        rw [clearIrq_bit]
        have other : ¬(rvClintMsipBit = rvClintMtipBit) := by decide
        simp only [other, decide_false, Bool.and_false, Bool.not_false, Bool.and_true]
        rfl
      · intro h inside apart
        simp only [DeviceBus.withGhost, lastData_concat, double, and_true]
        by_cases mine : h = hart
        · subst mine
          rw [if_pos here]
          exact Function.update_self _ _ _
        · have elsewhere : ¬(offset.toNat = clintMtimecmpBase + clintMtimecmpStride * h) := by
            rw [here, clintMtimecmpStride]
            omega
          rw [if_neg elsewhere]
          exact (Function.update_of_ne mine _ _).trans (before.mtimecmp h inside apart)
  | msip hart =>
      intro _ place
      obtain ⟨here, word⟩ := place
      have harts : ∀ set : Bool, (if set then bus.plain.clintPart.setIrq hart (bit rvClintMsipBit)
          else bus.plain.clintPart.clearIrq hart (bit rvClintMsipBit)).device =
            bus.device.1.irq.clint := by
        intro set
        cases set <;> rfl
      refine ⟨?_, ?_, ?_⟩
      · simp only [DeviceBus.withGhost, DeviceBus.putClint, harts]
        exact before.harts
      · intro h inside
        simp only [DeviceBus.withGhost, DeviceBus.putClint, lastData_concat, word, and_true]
        by_cases mine : h = hart
        · subst mine
          rw [if_pos here]
          cases raised : data.getLsbD 0 with
          | true =>
              rw [if_pos rfl, setIrq_bit _ _ _ (by decide)]
              simp
          | false =>
              rw [if_neg (by decide), clearIrq_bit]
              simp
        · have elsewhere : ¬(offset.toNat = clintMsipStride * h) := by
            rw [here, clintMsipStride]
            omega
          rw [if_neg elsewhere]
          refine Eq.trans ?_ (before.msip h inside)
          split
          · rw [setIrq_bit _ _ _ (by decide)]
            simp only [mine, decide_false, Bool.false_and, Bool.or_false]
            rfl
          · rw [clearIrq_bit]
            simp only [mine, decide_false, Bool.false_and, Bool.not_false, Bool.and_true]
            rfl
      · intro h inside apart
        have double : ¬(size = 8) := by rw [word]; decide
        simp only [DeviceBus.withGhost, DeviceBus.putClint, lastData_concat, double, and_false,
          if_false, harts]
        exact before.mtimecmp h inside apart
  | none =>
      intro accepted
      cases accepted

/-- Callbacks of the regions keep what the record says. -/
theorem busReach_recorded {mc : EmuConfig BoardDevices} {regions : List BoardRegion}
    {first last : DeviceBus RecordedDevices} (reach : BusReach (recordedOf mc regions) first last)
    (before : ClintMatches cpuCount first) : ClintMatches cpuCount last := by
  induction reach with
  | refl => exact before
  | read reached inside offset size ih =>
      obtain ⟨region, _, rfl⟩ := List.mem_map.mp inside
      cases region with
      | plic base => exact ih.frame rfl rfl fun h => plicStep_msip _ _ (.read offset size) h
      | clint base =>
          refine ih.frame ?_ rfl fun h => ?_
          · exact congrArg (fun bus : DeviceBus RvClint => bus.device) (clintRead_bus _ _ _ _)
          · exact congrArg (fun bus : DeviceBus RvClint => (bus.irqPending h).getLsbD _)
              (clintRead_bus _ _ _ _)
  | @write bus reached r inside offset size data ih =>
      obtain ⟨region, _, rfl⟩ := List.mem_map.mp inside
      cases region with
      | plic base => exact ih.frame rfl (ite_self _) fun h => plicStep_msip _ _ (.write offset size data) h
      | clint base =>
          change ClintMatches cpuCount ((bus.plain.putClint (clintWrite bus.plain.device.now
            bus.plain.clintPart offset size data).2).withGhost
              (if (clintWrite bus.plain.device.now bus.plain.clintPart offset size data).1 then
                bus.device.2 ++ [⟨offset, size, data⟩] else bus.device.2))
          split
          · next accepted => exact clintWrite_recorded ih _ offset size data accepted
          · next refused =>
              rw [clintWrite_refused (Bool.eq_false_iff.mpr refused)]
              exact ih.frame rfl rfl fun h => rfl

/-- A register write of an instruction leaves the software interrupts alone. -/
theorem doCsrWrite_msip {cpu cpu' : RvCpu} {insn : U32} {rdata : U64} (form : IsCsrInsn insn)
    (read : doCsrRead cpu insn = some rdata) (written : doCsrWrite cpu insn rdata = some cpu') :
    cpu'.irqPending.getLsbD rvClintMsipBit = cpu.irqPending.getLsbD rvClintMsipBit := by
  rcases doCsrWrite_cases form read written with unchanged | ⟨reg, wdata, _, stored⟩
  · rw [unchanged]
  · have fixed : rvSipWmask.getLsbD rvClintMsipBit = false := by decide
    rw [rvCsrWriteReg_irqPending stored]
    split
    · rw [BitField.getLsbD_replace, fixed, if_neg (by decide)]
    split
    · rw [BitField.getLsbD_replace, BitVec.getLsbD_and, fixed, Bool.and_false, if_neg (by decide)]
    · rfl

theorem recordedStep_matches {mc : EmuConfig BoardDevices} {regions : List BoardRegion}
    {m : EmuMachine RecordedDevices} (before : ClintMatches cpuCount m.bus) (e : BoardEvent) :
    ClintMatches cpuCount (recordedStep (recordedOf mc regions) m e).bus := by
  cases e with
  | step h =>
      have hooks : (recordedOf mc regions).NoHooks := fun _ => rfl
      have stepped := rvStepInsn_stepBus hooks m h
      simp only [recordedStep]
      revert stepped
      generalize (rvStepInsn (recordedOf mc regions) m h).bus = last
      intro stepped
      cases stepped with
      | callbacks reach => exact busReach_recorded reach before
      | @csr fetched insn rdata cpu word reach form read written =>
          refine (busReach_recorded reach before).frame rfl rfl fun i => ?_
          by_cases mine : i = h
          · subst mine
            simp only [EmuMachine.bus, EmuMachine.setCpu_same]
            exact doCsrWrite_msip form read written
          · simp only [EmuMachine.bus, EmuMachine.setCpu_other _ _ mine]
  | timer h =>
      exact before.frame (cpuThreadCheckTimer_device _ _ _) rfl fun i =>
        cpuThreadCheckTimer_bit _ _ _ _ (by decide)
  | clock now => exact before.frame rfl rfl fun i => rfl
  | raise source => exact before.frame rfl rfl fun i => plicStep_msip _ _ (.setPending source) i
  | load ram => exact before

end Matches

theorem recordedInit_matches (mc : EmuConfig BoardDevices) (now : U64) :
    ClintMatches mc.cpuCount (recordedInit mc now).bus := by
  refine ⟨rfl, ?_, ?_⟩
  · intro h inside
    simp [recordedInit, EmuMachine.bus, emuMachineInit, rvSyncMemPrivilege, RvCpu.zero, lastData]
  · exact fun h inside apart => rfl

/-- After any run of a board that stores nothing past the arrays, MSIP of every hart is bit 0
of the last word that the CLINT accepted for it from any hart, and the time its timer is set
to is the last double word. The record of what it accepted changes nothing on the board. -/
theorem clint_last_writes (past : DeviceBus RvPlic → DeviceBus RvPlic)
    (mc : EmuConfig BoardDevices) (hooks : mc.NoHooks) (regions : List BoardRegion) (now : U64)
    (events : List BoardEvent) {m : EmuMachine BoardDevices} {m' : EmuMachine RecordedDevices}
    (reached : m = run (hostBoardStep past (boardOf mc regions)) (boardInit mc now) events)
    (recorded : m' = run (recordedStep (recordedOf mc regions)) (recordedInit mc now) events)
    (inside : StepsMeet (hostBoardStep past (boardOf mc regions))
      (InsideArrays (boardOf mc regions)) (boardInit mc now) events) :
    OnDevices UnderGhost m m' ∧ ∀ h < mc.cpuCount,
      (m.cpus h).irqPending.getLsbD rvClintMsipBit =
        (lastData m'.device.2 (clintMsipStride * h) 4).getLsbD 0 ∧
      (clintMtimecmpBase + clintMtimecmpStride * h ≠ clintMtimeOffset →
        m.device.irq.clint.mtimecmp h =
          lastData m'.device.2 (clintMtimecmpBase + clintMtimecmpStride * h) 8) := by
  rw [hostBoardRun_eq inside] at reached
  have start : OnDevices UnderGhost (boardInit mc now) (recordedInit mc now) :=
    ⟨underGhost_pair _ _, rfl⟩
  have on : OnDevices UnderGhost m m' := by
    rw [reached, recorded]
    refine related_run (R := OnDevices UnderGhost) (C := fun _ _ => True) ?_ start
      (stepsMeet_of_forall _ fun _ _ => trivial)
    exact fun _ _ e on _ => recordedStep_sim hooks on e
  have holds : ClintMatches mc.cpuCount m'.bus := by
    rw [recorded]
    exact invariant_run_always
      (I := fun m : EmuMachine RecordedDevices => ClintMatches mc.cpuCount m.bus)
      (fun _ e before => recordedStep_matches before e) events (recordedInit_matches mc now)
  refine ⟨on, fun h inside => ⟨?_, ?_⟩⟩
  · have same : m'.bus.irqPending = m.bus.irqPending := on.bus.irqPending
    have msip := holds.msip h inside
    rw [same] at msip
    exact msip
  · intro apart
    have same : m.device = m'.device.1 := on.device.symm
    rw [same]
    exact holds.mtimecmp h inside apart

/-- Two harts with a CLINT and a PLIC. -/
def pairHost : EmuConfig BoardDevices := { soloBoard with cpuCount := 2 }

def pairRegions : List BoardRegion := [.clint 0x2000000, .plic 0xc000000]

/-- Hart 0 raises MSIP of hart 1. -/
def sendEvents : List BoardEvent :=
  [.load (programRam [0x020000b7, 0x00100113, 0x0020a223]),
    .step 0, .step 0, .timer 1, .step 0, .timer 0]

theorem sendEvents_inside :
    StepsMeet (hostBoardStep (fun bus => bus) (boardOf pairHost pairRegions))
      (InsideArrays (boardOf pairHost pairRegions)) (boardInit pairHost 0) sendEvents :=
  insideArrays_run (fun _ => rfl) (emuMachineInit_inArray _) (by decide +kernel)

theorem clint_last_writes_sent :
    OnDevices UnderGhost
      (run (hostBoardStep (fun bus => bus) (boardOf pairHost pairRegions)) (boardInit pairHost 0)
        sendEvents)
      (run (recordedStep (recordedOf pairHost pairRegions)) (recordedInit pairHost 0) sendEvents) ∧
    ∀ h < pairHost.cpuCount,
      ((run (hostBoardStep (fun bus => bus) (boardOf pairHost pairRegions)) (boardInit pairHost 0)
        sendEvents).cpus h).irqPending.getLsbD rvClintMsipBit =
        (lastData (run (recordedStep (recordedOf pairHost pairRegions)) (recordedInit pairHost 0)
          sendEvents).device.2 (clintMsipStride * h) 4).getLsbD 0 ∧
      (clintMtimecmpBase + clintMtimecmpStride * h ≠ clintMtimeOffset →
        (run (hostBoardStep (fun bus => bus) (boardOf pairHost pairRegions)) (boardInit pairHost 0)
          sendEvents).device.irq.clint.mtimecmp h =
          lastData (run (recordedStep (recordedOf pairHost pairRegions)) (recordedInit pairHost 0)
            sendEvents).device.2 (clintMtimecmpBase + clintMtimecmpStride * h) 8) :=
  clint_last_writes (fun bus => bus) pairHost (fun _ => rfl) pairRegions 0 sendEvents rfl rfl
    sendEvents_inside

end Riscmulator
