import Riscmulator.CsrWrite
import Riscmulator.Device.Clint
import Riscmulator.Device.PlicClaims

/-! The interrupt lines of the harts: one word per hart, driven by the PLIC, by
the CLINT and by CSR writes. -/

namespace Riscmulator

open Transition

/-! ### The lines the PLIC drives -/

def plicIrqLine (ctx : Nat) : Nat := if ctx % 2 = 0 then rvPlicMeipBit else rvPlicSeipBit

theorem plicIrqBit_eq (ctx : Nat) : plicIrqBit ctx = bit (plicIrqLine ctx) := by
  unfold plicIrqBit plicIrqLine
  split <;> rfl

theorem plicIrqLine_lt (ctx : Nat) : plicIrqLine ctx < 64 := by
  unfold plicIrqLine
  split <;> decide

theorem plicUpdateContext_bit (cpuCount : Nat) (plic : RvPlic) (irq : Nat → U64)
    (ctx h line : Nat) :
    (plicUpdateContext cpuCount plic irq ctx h).getLsbD line =
      if h = ctx / 2 ∧ h < cpuCount ∧ line = plicIrqLine ctx then plic.hasIrq ctx
      else (irq h).getLsbD line := by
  have bound := plicIrqLine_lt ctx
  unfold plicUpdateContext
  rw [plicIrqBit_eq]
  simp only [bit]
  by_cases absent : ctx / 2 ≥ cpuCount
  · rw [if_pos absent, if_neg (by omega)]
  · rw [if_neg absent]
    by_cases mine : h = ctx / 2
    · subst mine
      cases hasIrq : plic.hasIrq ctx with
      | true =>
          simp only [if_true, Function.update_self]
          rw [BitField.getLsbD_setBit]
          by_cases here : line = plicIrqLine ctx
          · simp [here, bound, Nat.not_le.mp absent]
          · simp [here]
      | false =>
          simp only [Bool.false_eq_true, if_false, Function.update_self]
          rw [BitField.getLsbD_clearBit]
          by_cases here : line = plicIrqLine ctx
          · simp [here, Nat.not_le.mp absent]
          · simp [here]
    · have elsewhere : ¬(h = ctx / 2 ∧ h < cpuCount ∧ line = plicIrqLine ctx) :=
        fun both => mine both.1
      rw [if_neg elsewhere]
      split <;> rw [Function.update_of_ne mine]

/-- The contexts that `plic_update_harts` has gone through after `n` rounds. -/
theorem plicUpdateRounds_bit (cpuCount : Nat) (plic : RvPlic) (irq : Nat → U64) (h line n : Nat) :
    ((List.range n).foldl (plicUpdateContext cpuCount plic) irq h).getLsbD line =
      if h < cpuCount ∧ 2 * h < n ∧ line = rvPlicMeipBit then plic.hasIrq (2 * h)
      else if h < cpuCount ∧ 2 * h + 1 < n ∧ line = rvPlicSeipBit then plic.hasIrq (2 * h + 1)
      else (irq h).getLsbD line := by
  induction n with
  | zero => simp
  | succ n ih =>
      rw [List.range_succ, List.foldl_append, List.foldl_cons, List.foldl_nil,
        plicUpdateContext_bit, ih]
      rcases Nat.even_or_odd' n with ⟨k, even | odd⟩
      · subst even
        have half : 2 * k / 2 = k := by omega
        have line_eq : plicIrqLine (2 * k) = rvPlicMeipBit := by simp [plicIrqLine]
        rw [half, line_eq]
        by_cases mine : h = k
        · subst mine
          have now : 2 * h < 2 * h + 1 := by omega
          have later : ¬2 * h + 1 < 2 * h := by omega
          simp [now, later]
        · have sameM : 2 * h < 2 * k + 1 ↔ 2 * h < 2 * k := by omega
          have sameS : 2 * h + 1 < 2 * k + 1 ↔ 2 * h + 1 < 2 * k := by omega
          simp only [mine, false_and, if_false, sameM, sameS]
      · subst odd
        have half : (2 * k + 1) / 2 = k := by omega
        have line_eq : plicIrqLine (2 * k + 1) = rvPlicSeipBit := by
          have : (2 * k + 1) % 2 = 1 := by omega
          simp [plicIrqLine, this]
        rw [half, line_eq]
        by_cases mine : h = k
        · subst mine
          have mDone : 2 * h < 2 * h + 1 + 1 := by omega
          have sDone : 2 * h + 1 < 2 * h + 1 + 1 := by omega
          by_cases here : line = rvPlicSeipBit
          · subst here
            have distinct : rvPlicSeipBit ≠ rvPlicMeipBit := by decide
            simp [distinct, sDone]
          · simp [here, mDone]
        · have sameM : 2 * h < 2 * k + 1 + 1 ↔ 2 * h < 2 * k + 1 := by omega
          have sameS : 2 * h + 1 < 2 * k + 1 + 1 ↔ 2 * h + 1 < 2 * k + 1 := by omega
          simp only [mine, false_and, if_false, sameM, sameS]

/-- After `plic_update_harts` both external lines of a hart follow its contexts,
and every other line is as before. -/
theorem plicUpdateLines_bit {cpuCount : Nat} {plic : RvPlic}
    (contexts : plic.numContexts = cpuCount * 2) (irq : Nat → U64) {h : Nat}
    (hart : h < cpuCount) (line : Nat) :
    (plicUpdateLines cpuCount plic irq h).getLsbD line =
      if line = rvPlicMeipBit then plic.hasIrq (2 * h)
      else if line = rvPlicSeipBit then plic.hasIrq (2 * h + 1)
      else (irq h).getLsbD line := by
  have mDone : 2 * h < cpuCount * 2 := by omega
  have sDone : 2 * h + 1 < cpuCount * 2 := by omega
  rw [plicUpdateLines, plicUpdateRounds_bit, contexts]
  simp only [hart, mDone, sDone, true_and]

/-- An operation of the controller changes nothing, or ends in an update. -/
theorem plicStep_cases (cpuCount : Nat) (bus : DeviceBus RvPlic) (e : PlicEvent) :
    (plicStep cpuCount bus e).device.numContexts = bus.device.numContexts ∧
    (plicStep cpuCount bus e = bus ∨
      (plicStep cpuCount bus e).irqPending =
        plicUpdateLines cpuCount (plicStep cpuCount bus e).device bus.irqPending) := by
  cases e with
  | setPending source =>
      simp only [plicStep, rvPlicSetPending]
      split
      · exact ⟨rfl, Or.inl rfl⟩
      · exact ⟨rfl, Or.inr rfl⟩
  | write offset size value =>
      simp only [plicStep, plicWrite]
      split
      · exact ⟨rfl, Or.inl rfl⟩
      · cases plicDecode bus.device offset with
        | priority src => exact ⟨rfl, Or.inr rfl⟩
        | pending word => exact ⟨rfl, Or.inl rfl⟩
        | enable ctx word => exact ⟨rfl, Or.inr rfl⟩
        | threshold ctx => exact ⟨rfl, Or.inr rfl⟩
        | claim ctx => exact ⟨rfl, Or.inl rfl⟩
        | none => exact ⟨rfl, Or.inl rfl⟩
  | read offset size =>
      simp only [plicStep, plicRead]
      split
      · exact ⟨rfl, Or.inl rfl⟩
      · cases plicDecode bus.device offset with
        | claim ctx =>
            simp only [plicDoClaim]
            split
            · exact ⟨rfl, Or.inl rfl⟩
            · split
              · exact ⟨rfl, Or.inr rfl⟩
              · exact ⟨rfl, Or.inl rfl⟩
        | _ => exact ⟨rfl, Or.inl rfl⟩

/-! ### The lines the CLINT drives -/

theorem clintWrite_bit (now : U64) (bus : DeviceBus RvClint) (offset : U64) (size : U8)
    (value : U64) (h : Nat) {line : Nat} (msip : line ≠ rvClintMsipBit)
    (mtip : line ≠ rvClintMtipBit) :
    ((clintWrite now bus offset size value).2.irqPending h).getLsbD line =
      (bus.irqPending h).getLsbD line := by
  simp only [clintWrite]
  cases clintDecode bus.device offset size with
  | mtime => rfl
  | mtimecmp hart =>
      simp only [rvClintSetMtimecmp]
      rw [clearIrq_bit]
      simp [mtip]
  | msip hart =>
      simp only
      split
      · rw [setIrq_bit _ _ _ (by decide)]
        simp [msip]
      · rw [clearIrq_bit]
        simp [msip]
  | none => rfl

theorem cpuThreadCheckTimer_bit (bus : DeviceBus RvClint) (hart : Nat) (now : U64) (h : Nat)
    {line : Nat} (mtip : line ≠ rvClintMtipBit) :
    ((cpuThreadCheckTimer bus hart now).irqPending h).getLsbD line =
      (bus.irqPending h).getLsbD line := by
  simp only [cpuThreadCheckTimer, rvClintCheckTimer]
  split
  · split
    · rw [setIrq_bit _ _ _ (by decide)]
      simp [mtip]
    · rfl
  · rfl

/-! ### The lines a CSR write drives -/

/-- The register write is one that clears SEIP: of `mip`, or of `sip` with the
line delegated, and with the line's bit clear. -/
def ClearsSeip (cpu : RvCpu) (index : Nat) (wdata : U64) : Prop :=
  wdata.getLsbD rvMipSeipBit = false ∧
    (CsrGrants cpu index .mip ∨
      (CsrGrants cpu index .sip ∧ cpu.csr.mideleg.getLsbD rvMipSeipBit = true))

/-- A CSR write leaves MEIP alone, and SEIP unless the line is under its mask. -/
theorem rvCsrWrite_externalLines {cpu cpu' : RvCpu} {index : Nat} {wdata : U64}
    (written : rvCsrWrite cpu index wdata = some cpu') :
    cpu'.irqPending.getLsbD rvMipMeipBit = cpu.irqPending.getLsbD rvMipMeipBit ∧
    (cpu.irqPending.getLsbD rvMipSeipBit = true →
      (cpu'.irqPending.getLsbD rvMipSeipBit = true ↔ ¬ClearsSeip cpu index wdata)) := by
  obtain ⟨reg, ⟨allowed, selected⟩, written⟩ := rvCsrWrite_eq_some.mp written
  have meipFixed : rvSipWmask.getLsbD rvMipMeipBit = false := by decide
  have seipOpen : rvSipWmask.getLsbD rvMipSeipBit = true := by decide
  rw [rvCsrWriteReg_irqPending written]
  simp only [ClearsSeip, CsrGrants, selected, Option.some.injEq, allowed, true_and]
  by_cases mip : reg = .mip
  · subst mip
    rw [if_pos rfl, BitField.getLsbD_replace, BitField.getLsbD_replace, meipFixed, seipOpen]
    simp
  · by_cases sip : reg = .sip
    · subst sip
      rw [if_neg mip, if_pos rfl, BitField.getLsbD_replace, BitField.getLsbD_replace,
        BitVec.getLsbD_and, BitVec.getLsbD_and, meipFixed, seipOpen]
      simp only [Bool.and_false, Bool.and_true, Bool.false_eq_true, if_false, mip, false_or,
        true_and]
      intro up
      rw [up]
      cases cpu.csr.mideleg.getLsbD rvMipSeipBit <;> simp
    · simp only [mip, sip, if_false, true_and]
      intro up
      simp [up]

/-! ### All owners of the lines together -/

structure IrqDevices where
  plic : RvPlic
  clint : RvClint

def EmuMachine.plicBus (m : EmuMachine IrqDevices) : DeviceBus RvPlic where
  device := m.device.plic
  irqPending := m.bus.irqPending
  clintTimerArmed := m.bus.clintTimerArmed

def EmuMachine.clintBus (m : EmuMachine IrqDevices) : DeviceBus RvClint where
  device := m.device.clint
  irqPending := m.bus.irqPending
  clintTimerArmed := m.bus.clintTimerArmed

def EmuMachine.setPlicBus (m : EmuMachine IrqDevices) (bus : DeviceBus RvPlic) :
    EmuMachine IrqDevices :=
  m.setBus ⟨{ m.device with plic := bus.device }, bus.irqPending, bus.clintTimerArmed⟩

def EmuMachine.setClintBus (m : EmuMachine IrqDevices) (bus : DeviceBus RvClint) :
    EmuMachine IrqDevices :=
  m.setBus ⟨{ m.device with clint := bus.device }, bus.irqPending, bus.clintTimerArmed⟩

/-- An operation that may drive an interrupt line, or (`core`) any other change
a hart makes to its own registers. -/
inductive IrqEvent
  | plic (e : PlicEvent)
  | clintWrite (now offset : U64) (size : U8) (value : U64)
  | checkTimer (hart : Nat) (now : U64)
  | csrWrite (hart index : Nat) (wdata : U64)
  | core (hart : Nat) (cpu : RvCpu)

def irqStep (cpuCount : Nat) (m : EmuMachine IrqDevices) : IrqEvent → EmuMachine IrqDevices
  | .plic e => m.setPlicBus (plicStep cpuCount m.plicBus e)
  | .clintWrite now offset size value =>
      m.setClintBus (clintWrite now m.clintBus offset size value).2
  | .checkTimer hart now => m.setClintBus (cpuThreadCheckTimer m.clintBus hart now)
  | .csrWrite hart index wdata =>
      match rvCsrWrite (m.cpus hart) index wdata with
      | none => m
      | some cpu => m.setCpu hart cpu
  | .core hart cpu => m.setCpu hart { cpu with irqPending := (m.cpus hart).irqPending }

def irqMachine (cpuCount : Nat) (now : U64) : EmuMachine IrqDevices :=
  emuMachineInit ⟨rvPlicInit cpuCount, rvClintInit now cpuCount⟩

/-- A context has a source that is pending, enabled and above its threshold. -/
def RvPlic.Interrupts (plic : RvPlic) (ctx : Nat) : Prop :=
  ∃ src, 1 ≤ src ∧ src ≤ 63 ∧ plic.claimable ctx src = true

theorem hasIrq_iff (plic : RvPlic) (ctx : Nat) :
    plic.hasIrq ctx = true ↔ plic.Interrupts ctx := by
  simp only [RvPlic.hasIrq, plicSources, List.any_eq_true, List.mem_range'_1]
  constructor
  · intro has
    rcases has with ⟨src, inside, takes⟩
    have word := claimable_inside takes
    simp only [rvPlicRegWords, rvPlicNumSources] at word inside
    exact ⟨src, by omega, by omega, takes⟩
  · intro has
    rcases has with ⟨src, low, high, takes⟩
    exact ⟨src, ⟨low, by simp only [rvPlicNumSources]; omega⟩, takes⟩

/-- The external lines of every hart: MEIP follows its M context, SEIP is up
whenever its S context has an interrupt. -/
structure ExternalLines (cpuCount : Nat) (m : EmuMachine IrqDevices) : Prop where
  meip : ∀ h < cpuCount,
    ((m.cpus h).irqPending.getLsbD rvMipMeipBit = true ↔ m.device.plic.Interrupts (2 * h))
  seip : ∀ h < cpuCount, m.device.plic.Interrupts (2 * h + 1) →
    (m.cpus h).irqPending.getLsbD rvMipSeipBit = true

/-- The condition on a step: a CSR write does not clear SEIP of a hart whose S
context has an interrupt. -/
def KeepsSeip (cpuCount : Nat) (m : EmuMachine IrqDevices) : IrqEvent → Prop
  | .csrWrite hart index wdata =>
      hart < cpuCount → m.device.plic.Interrupts (2 * hart + 1) →
        ¬ClearsSeip (m.cpus hart) index wdata
  | _ => True

/-- A step that leaves the PLIC and both external lines alone. -/
theorem externalLines_frame {cpuCount : Nat} {m m' : EmuMachine IrqDevices}
    (lines : ExternalLines cpuCount m) (plic : m'.device.plic = m.device.plic)
    (meip : ∀ h, (m'.cpus h).irqPending.getLsbD rvMipMeipBit =
      (m.cpus h).irqPending.getLsbD rvMipMeipBit)
    (seip : ∀ h, (m'.cpus h).irqPending.getLsbD rvMipSeipBit =
      (m.cpus h).irqPending.getLsbD rvMipSeipBit) : ExternalLines cpuCount m' := by
  constructor
  · intro h hart
    rw [meip, plic]
    exact lines.meip h hart
  · intro h hart serves
    rw [seip]
    exact lines.seip h hart (plic ▸ serves)

theorem externalLines_plic {cpuCount : Nat} {m : EmuMachine IrqDevices}
    (contexts : m.device.plic.numContexts = cpuCount * 2) (lines : ExternalLines cpuCount m)
    (e : PlicEvent) : ExternalLines cpuCount (irqStep cpuCount m (.plic e)) := by
  rcases plicStep_cases cpuCount m.plicBus e with ⟨kept, unchanged | updated⟩
  · simp only [irqStep, unchanged]
    exact externalLines_frame lines rfl (fun _ => rfl) (fun _ => rfl)
  · have bits : ∀ h < cpuCount, ∀ line,
        ((irqStep cpuCount m (.plic e)).cpus h).irqPending.getLsbD line =
          if line = rvPlicMeipBit then (irqStep cpuCount m (.plic e)).device.plic.hasIrq (2 * h)
          else if line = rvPlicSeipBit then
            (irqStep cpuCount m (.plic e)).device.plic.hasIrq (2 * h + 1)
          else (m.cpus h).irqPending.getLsbD line := by
      intro h hart line
      have irq : ((irqStep cpuCount m (.plic e)).cpus h).irqPending =
          (plicStep cpuCount m.plicBus e).irqPending h := rfl
      rw [irq, updated, plicUpdateLines_bit (kept.trans contexts) _ hart]
      rfl
    constructor
    · intro h hart
      rw [bits h hart, if_pos (by decide)]
      exact hasIrq_iff _ _
    · intro h hart serves
      rw [bits h hart, if_neg (by decide), if_pos (by decide)]
      exact (hasIrq_iff _ _).mpr serves

theorem not_clearsSeip_of_refused {cpu : RvCpu} {index : Nat} {wdata : U64}
    (refused : rvCsrWrite cpu index wdata = none) : ¬ClearsSeip cpu index wdata := by
  intro clears
  rcases clears with ⟨_, mip | ⟨sip, _⟩⟩
  · cases rvCsrWriteReg_eq_none refused mip
  · cases rvCsrWriteReg_eq_none refused sip

theorem externalLines_csrWrite {cpuCount : Nat} {m : EmuMachine IrqDevices}
    (lines : ExternalLines cpuCount m) (hart index : Nat) (wdata : U64) :
    ExternalLines cpuCount (irqStep cpuCount m (.csrWrite hart index wdata)) ↔
      KeepsSeip cpuCount m (.csrWrite hart index wdata) := by
  simp only [irqStep, KeepsSeip]
  cases written : rvCsrWrite (m.cpus hart) index wdata with
  | none =>
      simp only
      exact ⟨fun _ _ _ => not_clearsSeip_of_refused written, fun _ => lines⟩
  | some cpu =>
      obtain ⟨meip, seip⟩ := rvCsrWrite_externalLines written
      change ExternalLines cpuCount (m.setCpu hart cpu) ↔ _
      constructor
      · intro after inside serves
        have before := lines.seip hart inside serves
        have now := after.seip hart inside serves
        rw [EmuMachine.setCpu_same] at now
        exact (seip before).mp now
      · intro keeps
        constructor
        · intro h inside
          refine Iff.trans ?_ (lines.meip h inside)
          by_cases mine : h = hart
          · subst mine
            rw [EmuMachine.setCpu_same, meip]
          · rw [EmuMachine.setCpu_other _ _ mine]
        · intro h inside serves
          have before := lines.seip h inside serves
          by_cases mine : h = hart
          · subst mine
            rw [EmuMachine.setCpu_same]
            exact (seip before).mpr (keeps inside serves)
          · rw [EmuMachine.setCpu_other _ _ mine]
            exact before

theorem externalLines_step {cpuCount : Nat} {m : EmuMachine IrqDevices}
    (contexts : m.device.plic.numContexts = cpuCount * 2) (lines : ExternalLines cpuCount m)
    (e : IrqEvent) : ExternalLines cpuCount (irqStep cpuCount m e) ↔ KeepsSeip cpuCount m e := by
  cases e with
  | plic e => exact iff_of_true (externalLines_plic contexts lines e) trivial
  | clintWrite now offset size value =>
      refine iff_of_true (externalLines_frame lines rfl ?_ ?_) trivial
      · intro h
        exact clintWrite_bit now m.clintBus offset size value h (by decide) (by decide)
      · intro h
        exact clintWrite_bit now m.clintBus offset size value h (by decide) (by decide)
  | checkTimer hart now =>
      refine iff_of_true (externalLines_frame lines rfl ?_ ?_) trivial
      · intro h
        exact cpuThreadCheckTimer_bit m.clintBus hart now h (by decide)
      · intro h
        exact cpuThreadCheckTimer_bit m.clintBus hart now h (by decide)
  | csrWrite hart index wdata => exact externalLines_csrWrite lines hart index wdata
  | core hart cpu =>
      have irq : ∀ h, ((irqStep cpuCount m (.core hart cpu)).cpus h).irqPending =
          (m.cpus h).irqPending := by
        intro h
        by_cases mine : h = hart
        · subst mine
          simp [irqStep]
        · simp [irqStep, EmuMachine.setCpu_other _ _ mine]
      refine iff_of_true (externalLines_frame lines rfl ?_ ?_) trivial
      · intro h
        rw [irq]
      · intro h
        rw [irq]

theorem irqStep_numContexts (cpuCount : Nat) (m : EmuMachine IrqDevices) (e : IrqEvent) :
    (irqStep cpuCount m e).device.plic.numContexts = m.device.plic.numContexts := by
  cases e with
  | plic e => exact (plicStep_cases cpuCount m.plicBus e).1
  | csrWrite hart index wdata =>
      simp only [irqStep]
      split <;> rfl
  | _ => rfl

theorem externalLines_start (cpuCount : Nat) (now : U64) :
    ExternalLines cpuCount (irqMachine cpuCount now) := by
  have idle : ∀ ctx, ¬(irqMachine cpuCount now).device.plic.Interrupts ctx := by
    intro ctx has
    rcases has with ⟨src, _, _, takes⟩
    simp [irqMachine, emuMachineInit, rvPlicInit, RvPlic.claimable, plicBit, plicWord] at takes
  constructor
  · intro h _
    refine iff_of_false ?_ (idle _)
    simp [irqMachine, emuMachineInit, rvSyncMemPrivilege, RvCpu.zero]
  · intro h _ serves
    exact absurd serves (idle _)

/-- From power-on the external lines are right after every operation of a run
exactly when no CSR write of the run clears SEIP of a hart whose S context has
an interrupt. -/
theorem externalLines_run (cpuCount : Nat) (now : U64) (events : List IrqEvent) :
    Throughout (irqStep cpuCount) (ExternalLines cpuCount) (irqMachine cpuCount now) events ↔
      StepsMeet (irqStep cpuCount) (KeepsSeip cpuCount) (irqMachine cpuCount now) events :=
  throughout_iff_stepsMeet (I := fun m => m.device.plic.numContexts = cpuCount * 2)
    (P := ExternalLines cpuCount) (C := KeepsSeip cpuCount) (E := fun _ => True)
    (fun m e _ contexts => (irqStep_numContexts cpuCount m e).trans contexts)
    (fun _ e _ contexts lines => externalLines_step contexts lines e) rfl
    (externalLines_start cpuCount now) events (fun _ _ => trivial)

/-- A `mip` write of zero, after source 1 has become pending for the S context. -/
def seipLossRun : List IrqEvent :=
  [.plic (.write 4 4 1), .plic (.write 0x2080 4 2), .plic (.setPending 1),
   .csrWrite 0 0x344 0]

/-- One hart loses its external interrupt in that run. -/
theorem externalLines_lost :
    ¬Throughout (irqStep 1) (ExternalLines 1) (irqMachine 1 0) seipLossRun := by
  intro always
  have after := always seipLossRun (List.prefix_refl _)
  have serves : (run (irqStep 1) (irqMachine 1 0) seipLossRun).device.plic.Interrupts 1 :=
    ⟨1, by decide, by decide, by decide +kernel⟩
  have lost : ((run (irqStep 1) (irqMachine 1 0) seipLossRun).cpus 0).irqPending.getLsbD
      rvMipSeipBit = false := by decide +kernel
  have up := after.seip 0 (by decide) serves
  rw [lost] at up
  cases up

end Riscmulator
